/-
Arrivals at occurrences.

A run starts the nodes of a script one inside the other.  `Starts` has one constructor for
each place where the interpreter starts a child of the node that it is at, with the session
in which it does so: what comes before the child in that node has ended well by then.  Loops
start their children once for each round.  `Arrives` follows a run from its first statement to
an occurrence, as often as it comes there.  Since nothing stands between a child and its node
but checkpoints, a failure at an occurrence that a run arrives at is the failure of the run
(`Arrives.fails`).
-/
import CheckScript.Proofs.Script.FailStop
import CheckScript.Proofs.Script.Occurrence
import CheckScript.Proofs.Script.Triple

namespace CheckScript

theorem Failure.outOf_singleton (name : String) (f : Failure) :
    f.outOf [name] = f.inCheckpoint name := by
  cases f <;> rfl

theorem Failure.outOf_append (inner outer : List String) (f : Failure) :
    f.outOf (inner ++ outer) = (f.outOf inner).outOf outer := by
  cases f with
  | script line fault checkpoints => rw [outOf, outOf, outOf, List.append_assoc]
  | assertion line message checkpoints => rw [outOf, outOf, outOf, List.append_assoc]
  | _ => rfl

namespace Script

/-! ## Rounds of loops -/

/-- `Rounds cond body fuel s left t`: a loop that starts from `s` with `fuel` starts a round
from `t` with `left`. -/
inductive Rounds (cond : Run Bool) (body : Run Unit) (fuel : Nat) (s : Session) :
    Nat → Session → Prop where
  | start : Rounds cond body fuel s fuel s
  | next {left : Nat} {t u v : Session} (h : Rounds cond body fuel s (left + 1) t)
      (hcond : cond t = (.done true, u)) (hbody : body u = (.done (), v)) :
      Rounds cond body fuel s left v

/-- `ItemRounds body vs s rest t`: a loop that runs through `vs` from `s` on has `rest` before
it in `t`. -/
inductive ItemRounds (body : Value → Run Unit) (vs : List Value) (s : Session) :
    List Value → Session → Prop where
  | start : ItemRounds body vs s vs s
  | next {w : Value} {rest : List Value} {t u : Session} (h : ItemRounds body vs s (w :: rest) t)
      (hbody : body w t = (.done (), u)) : ItemRounds body vs s rest u

theorem bind_done {α β : Type} {m : Run α} {s t : Session} {a : α} (h : m s = (.done a, t))
    (k : α → Run β) : (m >>= k) s = k a t := by
  rw [Run.bind_apply, h]

theorem bind_failed {α β : Type} {m : Run α} {s t : Session} {f : Failure}
    (h : m s = (.failed f, t)) (k : α → Run β) : (m >>= k) s = (.failed f, t) := by
  rw [Run.bind_apply, h]

theorem whileTrue_round {cond : Run Bool} {body : Run Unit} {t u : Session}
    (hcond : cond t = (.done true, u)) (left : Nat) :
    Run.whileTrue (left + 1) cond body t =
      (body >>= fun _ => Run.whileTrue left cond body) u := by
  rw [Run.whileTrue]
  exact bind_done hcond _

theorem done_of_bind {α β : Type} {m : Run α} {k : α → Run β} {s u : Session} {b : β}
    (h : (m >>= k) s = (.done b, u)) : ∃ a t, m s = (.done a, t) ∧ k a t = (.done b, u) := by
  rw [Run.bind_apply] at h
  match hm : m s with
  | (.done a, t) =>
    rw [hm] at h
    exact ⟨a, t, rfl, h⟩
  | (.failed _, _) | (.unfinished _, _) =>
    rw [hm] at h
    exact nomatch (Prod.mk.inj h).1

theorem done_of_pure {α : Type} {a b : α} {s t : Session} (h : (pure a : Run α) s = (.done b, t)) :
    b = a ∧ t = s := by
  obtain ⟨ha, ht⟩ := Prod.mk.inj h
  exact ⟨(Outcome.done.inj ha).symm, ht.symm⟩

theorem done_of_onLine {α : Type} {line : Nat} {r : Except Fault α} {a : α} {s t : Session}
    (h : Run.onLine line r s = (.done a, t)) : r = .ok a ∧ t = s := by
  cases r with
  | ok b =>
    obtain ⟨rfl, rfl⟩ := done_of_pure h
    exact ⟨rfl, rfl⟩
  | error f => exact nomatch (Prod.mk.inj h).1

/-- From the start of a round on, a loop does what it does from there on. -/
theorem Rounds.whileTrue_eq {cond : Run Bool} {body : Run Unit} {fuel left : Nat}
    {s t : Session} (h : Rounds cond body fuel s left t) :
    Run.whileTrue fuel cond body s = Run.whileTrue left cond body t := by
  induction h with
  | start => rfl
  | next _ hcond hbody ih =>
    rw [ih, whileTrue_round hcond]
    exact bind_done hbody _

theorem ItemRounds.forEach_eq {body : Value → Run Unit} {vs rest : List Value} {s t : Session}
    (h : ItemRounds body vs s rest t) : Run.forEach body vs s = Run.forEach body rest t := by
  induction h with
  | start => rfl
  | next _ hbody ih =>
    rw [ih, Run.forEach]
    exact bind_done hbody _

/-- A loop that ends well ends with a round whose condition does not hold. -/
theorem whileTrue_ends {cond : Run Bool} {body : Run Unit} {fuel : Nat} {s u : Session}
    (h : Run.whileTrue fuel cond body s = (.done (), u)) :
    ∃ left t, Rounds cond body fuel s left t ∧ cond t = (.done false, u) := by
  have round : ∀ left t, Rounds cond body fuel s left t →
      Run.whileTrue left cond body t = (.done (), u) →
      ∃ left t, Rounds cond body fuel s left t ∧ cond t = (.done false, u) := by
    intro left
    induction left with
    | zero =>
      intro t hrounds h
      obtain ⟨b, v, hb, h⟩ := done_of_bind (by rwa [Run.whileTrue] at h)
      cases b with
      | true => exact nomatch (Prod.mk.inj h).1
      | false =>
        obtain ⟨-, rfl⟩ := done_of_pure h
        exact ⟨0, t, hrounds, hb⟩
    | succ left ih =>
      intro t hrounds h
      obtain ⟨b, v, hb, h⟩ := done_of_bind (by rwa [Run.whileTrue] at h)
      cases b with
      | true =>
        obtain ⟨_, w, hw, h⟩ := done_of_bind h
        exact ih w (.next hrounds hb hw) h
      | false =>
        obtain ⟨-, rfl⟩ := done_of_pure h
        exact ⟨left + 1, t, hrounds, hb⟩
  exact round fuel s .start h

theorem forEach_ends {body : Value → Run Unit} {vs : List Value} {s u : Session}
    (h : Run.forEach body vs s = (.done (), u)) : ItemRounds body vs s [] u := by
  have round : ∀ rest t, ItemRounds body vs s rest t →
      Run.forEach body rest t = (.done (), u) → ItemRounds body vs s [] u := by
    intro rest
    induction rest with
    | nil =>
      intro t hrounds h
      obtain ⟨-, rfl⟩ := done_of_pure h
      exact hrounds
    | cons w rest ih =>
      intro t hrounds h
      obtain ⟨_, v, hv, h⟩ := done_of_bind h
      exact ih v (.next hrounds hv) h
  exact round vs s .start h

/-- The invariant of a loop holds where a round starts. -/
theorem Rounds.keeps {inv : Session → Prop} {fault : Failure → Session → Prop} {cond : Run Bool}
    {body : Run Unit} {fuel left : Nat} {s t : Session} (h : Rounds cond body fuel s left t)
    (hcond : Run.Triple inv cond (fun _ => inv) fault)
    (hbody : Run.Triple inv body (fun _ => inv) fault) (hs : inv s) : inv t := by
  induction h with
  | start => exact hs
  | next _ hc hb ih => exact hbody.done (hcond.done ih hc) hb

theorem ItemRounds.keeps {inv : Session → Prop} {fault : Failure → Session → Prop}
    {body : Value → Run Unit} {vs rest : List Value} {s t : Session}
    (h : ItemRounds body vs s rest t)
    (hbody : ∀ v, Run.Triple inv (body v) (fun _ => inv) fault) (hs : inv s) : inv t := by
  induction h with
  | start => exact hs
  | next _ hb ih => exact (hbody _).done ih hb

/-! ## Nodes that start their children -/

/-- Expressions leave the variables alone. -/
theorem scopes_acting :
    Run.Acting (fun _ => True) fun {_} m => ∀ s, (m s).2.scopes = s.scopes where
  pure _ := fun _ => rfl
  bind {_ _ m k} hm hk := by
    intro s
    have hs := hm s
    rw [Run.bind_apply]
    match m s, hs with
    | (.done b, t), hs => exact (hk b t).trans hs
    | (.failed _, _), hs | (.unfinished _, _), hs => exact hs
  fault _ _ := fun _ => rfl
  assertion _ _ := fun _ => rfl
  scopes := fun _ => rfl
  note _ := fun _ => rfl
  send _ := fun _ => rfl
  expect _ _ _ := by
    intro s
    unfold Run.expect
    split <;> rfl
  buildDelta _ _ _ := by
    intro s
    unfold Run.buildDelta
    split <;> rfl

theorem eval_same_scopes (g : Environment) (e : Expr) (s : Session) :
    (eval g e s).2.scopes = s.scopes := scopes_acting.eval g e (fun _ _ => trivial) s

theorem evalAll_same_scopes (g : Environment) (es : List Expr) (s : Session) :
    (evalAll g es s).2.scopes = s.scopes := scopes_acting.evalAll g es (fun _ _ => trivial) s

theorem evalCondition_same_scopes (g : Environment) (e : Expr) (s : Session) :
    (evalCondition g e s).2.scopes = s.scopes :=
  scopes_acting.evalCondition g e (fun _ _ => trivial) s

theorem eval_scopes {g : Environment} {e : Expr} {v : Value} {s t : Session}
    (h : eval g e s = (.done v, t)) : t.scopes = s.scopes := by
  rw [← eval_same_scopes g e s, h]

theorem evalCondition_scopes {g : Environment} {e : Expr} {b : Bool} {s t : Session}
    (h : evalCondition g e s = (.done b, t)) : t.scopes = s.scopes := by
  rw [← evalCondition_same_scopes g e s, h]

/-- The session inside a block. -/
def Session.enter (s : Session) (scope : Scope) : Session := { s with scopes := scope :: s.scopes }

/-- The session inside a checkpoint that is entered. -/
def Session.mark (s : Session) (name : String) : Session :=
  { s with connection := s.connection.note s!"checkpoint '{name}'" }

/-- Whether an operator looks at its right side behind this value of its left side. -/
def BinaryOp.goesOn (op : BinaryOp) (v : Value) : Bool :=
  match op, v with
  | and, .bool b => b
  | or, .bool b => !b
  | and, _ | or, _ => false
  | _, _ => true

/-- A node that runs from the first session starts its child with this number from the second
session. -/
inductive Starts (g : Environment) (fuel : Nat) : Node → Session → Nat → Session → Prop where
  | items {p : Position} {es : List Expr} {s : Session} : Starts g fuel (.expr (.list p es)) s 0 s
  | operand {p : Position} {op : UnaryOp} {e : Expr} {s : Session} :
      Starts g fuel (.expr (.unary p op e)) s 0 s
  | left {p : Position} {op : BinaryOp} {l r : Expr} {s : Session} :
      Starts g fuel (.expr (.binary p op l r)) s 0 s
  | right {p : Position} {op : BinaryOp} {l r : Expr} {v : Value} {s t : Session}
      (hl : eval g l s = (.done v, t)) (hop : op.goesOn v = true) :
      Starts g fuel (.expr (.binary p op l r)) s 1 t
  | holder {p : Position} {e : Expr} {name : String} {s : Session} :
      Starts g fuel (.expr (.field p e name)) s 0 s
  | indexed {p : Position} {e i : Expr} {s : Session} : Starts g fuel (.expr (.index p e i)) s 0 s
  | index {p : Position} {e i : Expr} {v : Value} {s t : Session}
      (he : eval g e s = (.done v, t)) : Starts g fuel (.expr (.index p e i)) s 1 t
  | args {p : Position} {name : String} {es : List Expr} {s : Session} :
      Starts g fuel (.expr (.call p name es)) s 0 s
  | object {p : Position} {e : Expr} {name : String} {es : List Expr} {s : Session} :
      Starts g fuel (.expr (.method p e name es)) s 0 s
  | methodArgs {p : Position} {e : Expr} {name : String} {es : List Expr} {v : Value}
      {s t : Session} (he : eval g e s = (.done v, t)) :
      Starts g fuel (.expr (.method p e name es)) s 1 t
  | first {e : Expr} {es : List Expr} {s : Session} : Starts g fuel (.exprs (e :: es)) s 0 s
  | others {e : Expr} {es : List Expr} {v : Value} {s t : Session}
      (he : eval g e s = (.done v, t)) : Starts g fuel (.exprs (e :: es)) s 1 t
  | declared {line : Nat} {name : String} {e : Expr} {s : Session} :
      Starts g fuel (.stmt (.declare line name e)) s 0 s
  | assigned {line : Nat} {name : String} {e : Expr} {s : Session} :
      Starts g fuel (.stmt (.assign line name e)) s 0 s
  | evaluated {line : Nat} {e : Expr} {s : Session} : Starts g fuel (.stmt (.evaluate line e)) s 0 s
  | cond {line : Nat} {e : Expr} {body : List Stmt} {other : Option Stmt} {s : Session} :
      Starts g fuel (.stmt (.branch line e body other)) s 0 s
  | body {line : Nat} {e : Expr} {body : List Stmt} {other : Option Stmt} {s t : Session}
      (he : evalCondition g e s = (.done true, t)) :
      Starts g fuel (.stmt (.branch line e body other)) s 1 (t.enter [])
  | other {line : Nat} {e : Expr} {body : List Stmt} {st : Stmt} {s t : Session}
      (he : evalCondition g e s = (.done false, t)) :
      Starts g fuel (.stmt (.branch line e body (some st))) s 2 t
  | loopCond {line : Nat} {e : Expr} {body : List Stmt} {left : Nat} {s t : Session}
      (h : Rounds (evalCondition g e) (Run.inScope [] (execAll g fuel body)) fuel s left t) :
      Starts g fuel (.stmt (.loop line e body)) s 0 t
  | loopBody {line : Nat} {e : Expr} {body : List Stmt} {left : Nat} {s t u : Session}
      (h : Rounds (evalCondition g e) (Run.inScope [] (execAll g fuel body)) fuel s (left + 1) t)
      (he : evalCondition g e t = (.done true, u)) :
      Starts g fuel (.stmt (.loop line e body)) s 1 (u.enter [])
  | eachItems {line : Nat} {name : String} {e : Expr} {body : List Stmt} {s : Session} :
      Starts g fuel (.stmt (.each line name e body)) s 0 s
  | eachBody {line : Nat} {name : String} {e : Expr} {body : List Stmt} {v w : Value}
      {vs rest : List Value} {s t u : Session} (he : eval g e s = (.done v, t))
      (hv : v.elements = .ok vs)
      (h : ItemRounds (fun w => Run.inScope [(name, w)] (execAll g fuel body)) vs t (w :: rest) u) :
      Starts g fuel (.stmt (.each line name e body)) s 1 (u.enter [(name, w)])
  | block {line : Nat} {body : List Stmt} {s : Session} :
      Starts g fuel (.stmt (.block line body)) s 0 (s.enter [])
  | checkpoint {line : Nat} {name : String} {body : List Stmt} {s : Session} :
      Starts g fuel (.stmt (.checkpoint line name body)) s 0 ((s.mark name).enter [])
  | head {st : Stmt} {ss : List Stmt} {s : Session} : Starts g fuel (.stmts (st :: ss)) s 0 s
  | tail {st : Stmt} {ss : List Stmt} {s t : Session} (hst : exec g fuel st s = (.done (), t)) :
      Starts g fuel (.stmts (st :: ss)) s 1 t

/-- What is started is a child of the node. -/
theorem Starts.child {g : Environment} {fuel i : Nat} {node : Node} {s t : Session}
    (h : Starts g fuel node s i t) (names : Names) :
    ∃ child, (node.children names)[i]? = some child := by
  cases h <;> exact ⟨_, rfl⟩

/-! ## Failures of children -/

/-- Run a node for what it does. -/
def Node.run (g : Environment) (fuel : Nat) : Node → Run Unit
  | expr e => do let _ ← eval g e
  | exprs es => do let _ ← evalAll g es
  | stmt st => exec g fuel st
  | stmts ss => execAll g fuel ss

section Failing

variable {g : Environment} {fuel : Nat} {s t u : Session} {f : Failure}

/-- A step whose value is thrown away fails as the step does. -/
theorem failed_of_forget {α : Type} {m : Run α}
    (h : (m >>= fun _ => (pure () : Run Unit)) s = (.failed f, u)) : m s = (.failed f, u) := by
  rw [Run.bind_apply] at h
  match hm : m s with
  | (.done _, _) | (.unfinished _, _) =>
    rw [hm] at h
    exact nomatch (Prod.mk.inj h).1
  | (.failed _, _) =>
    rw [hm] at h
    obtain ⟨hf, rfl⟩ := Prod.mk.inj h
    obtain rfl := Outcome.failed.inj hf
    rfl

theorem eval_left_fails {p : Position} {op : BinaryOp} {l r : Expr}
    (hl : eval g l s = (.failed f, u)) : eval g (.binary p op l r) s = (.failed f, u) := by
  cases op <;> exact bind_failed hl _

theorem eval_right_fails {p : Position} {op : BinaryOp} {l r : Expr} {v : Value}
    (hl : eval g l s = (.done v, t)) (hop : op.goesOn v = true)
    (hr : eval g r t = (.failed f, u)) : eval g (.binary p op l r) s = (.failed f, u) := by
  cases op with
  | and =>
    match v, hop with
    | .bool true, _ =>
      refine (bind_done hl _).trans ?_
      exact bind_failed hr _
  | or =>
    match v, hop with
    | .bool false, _ =>
      refine (bind_done hl _).trans ?_
      exact bind_failed hr _
  | _ =>
    refine (bind_done hl _).trans ?_
    exact bind_failed hr _

theorem evalCondition_fails {e : Expr} (h : eval g e s = (.failed f, u)) :
    evalCondition g e s = (.failed f, u) := bind_failed h _

theorem inScope_fails {scope : Scope} {body : Run Unit}
    (h : body (s.enter scope) = (.failed f, u)) :
    Run.inScope scope body s = (.failed f, { u with scopes := u.scopes.drop 1 }) := by
  unfold Run.inScope
  rw [show { s with scopes := scope :: s.scopes } = s.enter scope from rfl, h]

theorem checkpoint_fails (g : Environment) {name : String} {body : Run Unit}
    (h : body (s.mark name) = (.failed f, u)) :
    Run.checkpoint name body s = (.failed (f.outOf [name]), (Effect.failed name f).apply g u) := by
  rw [checkpoint_apply g, show (Effect.entered name).apply g s = s.mark name from rfl, h,
    Failure.outOf_singleton]

theorem exec_each (line : Nat) {name : String} {e : Expr} {body : List Stmt} {v : Value}
    {vs : List Value} (he : eval g e s = (.done v, t)) (hv : v.elements = .ok vs) :
    exec g fuel (.each line name e body) s =
      Run.forEach (fun w => Run.inScope [(name, w)] (execAll g fuel body)) vs t := by
  refine (bind_done he _).trans ?_
  rw [hv]
  rfl

theorem done_of_inScope {scope : Scope} {body : Run Unit}
    (h : Run.inScope scope body s = (.done (), u)) :
    ∃ w, body (s.enter scope) = (.done (), w) ∧ u = { w with scopes := w.scopes.drop 1 } := by
  obtain ⟨hdone, hu⟩ := Prod.mk.inj h
  exact ⟨_, Prod.ext hdone rfl, hu.symm⟩

theorem done_of_checkpoint {name : String} {body : Run Unit}
    (h : Run.checkpoint name body s = (.done (), u)) :
    ∃ w, body (s.mark name) = (.done (), w) ∧ u.scopes = w.scopes := by
  obtain ⟨_, v, hnote, h⟩ := done_of_bind h
  obtain rfl : s.mark name = v := (Prod.mk.inj hnote).2
  cases hbody : body (s.mark name) with
  | mk o w =>
    rw [hbody] at h
    cases o with
    | done a =>
      obtain ⟨-, rfl⟩ := Prod.mk.inj h
      exact ⟨w, rfl, rfl⟩
    | failed f => exact nomatch (Prod.mk.inj h).1
    | unfinished => exact nomatch (Prod.mk.inj h).1

/-- A failure of a child is the failure of the node, which may add the name of a checkpoint. -/
theorem Starts.fails {node : Node} {i : Nat} (h : Starts g fuel node s i t) {names : Names}
    {child : Names × Node} (hchild : (node.children names)[i]? = some child)
    (hf : child.2.run g fuel t = (.failed f, u)) :
    ∃ left v, node.run g fuel s = (.failed (f.outOf left), v) := by
  have plain {v : Session} (hrun : node.run g fuel s = (.failed f, v)) :
      ∃ left v, node.run g fuel s = (.failed (f.outOf left), v) :=
    ⟨[], v, by rw [f.outOf_nil]; exact hrun⟩
  have value {e : Expr} {v : Session} (hnode : node = .expr e)
      (heval : eval g e s = (.failed f, v)) :
      ∃ left v, node.run g fuel s = (.failed (f.outOf left), v) := by
    subst hnode
    exact plain (bind_failed heval _)
  cases h with
  | items | operand | holder | indexed | args | object =>
    obtain rfl := Option.some.inj hchild
    exact value rfl (bind_failed (failed_of_forget hf) _)
  | left =>
    obtain rfl := Option.some.inj hchild
    exact value rfl (eval_left_fails (failed_of_forget hf))
  | right hl hop =>
    obtain rfl := Option.some.inj hchild
    exact value rfl (eval_right_fails hl hop (failed_of_forget hf))
  | index he | methodArgs he =>
    obtain rfl := Option.some.inj hchild
    exact value rfl ((bind_done he _).trans (bind_failed (failed_of_forget hf) _))
  | first =>
    obtain rfl := Option.some.inj hchild
    exact plain (bind_failed (bind_failed (failed_of_forget hf) _) _)
  | others he =>
    obtain rfl := Option.some.inj hchild
    exact plain (bind_failed ((bind_done he _).trans (bind_failed (failed_of_forget hf) _)) _)
  | declared | assigned | evaluated | eachItems =>
    obtain rfl := Option.some.inj hchild
    exact plain (bind_failed (failed_of_forget hf) _)
  | cond =>
    obtain rfl := Option.some.inj hchild
    exact plain (bind_failed (evalCondition_fails (failed_of_forget hf)) _)
  | body he =>
    obtain rfl := Option.some.inj hchild
    exact plain ((bind_done he _).trans (inScope_fails hf))
  | other he =>
    obtain rfl := Option.some.inj hchild
    exact plain ((bind_done he _).trans hf)
  | loopCond hrounds =>
    obtain rfl := Option.some.inj hchild
    refine plain (v := u) (hrounds.whileTrue_eq.trans ?_)
    unfold Run.whileTrue
    exact bind_failed (evalCondition_fails (failed_of_forget hf)) _
  | loopBody hrounds he =>
    obtain rfl := Option.some.inj hchild
    exact plain (hrounds.whileTrue_eq.trans
      ((whileTrue_round he _).trans (bind_failed (inScope_fails hf) _)))
  | @eachBody line _ _ _ _ _ _ _ _ _ _ he hv hrounds =>
    obtain rfl := Option.some.inj hchild
    exact plain ((exec_each line he hv).trans
      (hrounds.forEach_eq.trans (bind_failed (inScope_fails hf) _)))
  | block =>
    obtain rfl := Option.some.inj hchild
    exact plain (inScope_fails hf)
  | checkpoint =>
    obtain rfl := Option.some.inj hchild
    exact ⟨_, _, checkpoint_fails g (inScope_fails hf)⟩
  | head =>
    obtain rfl := Option.some.inj hchild
    exact plain (bind_failed hf _)
  | tail hst =>
    obtain rfl := Option.some.inj hchild
    exact plain ((bind_done hst _).trans hf)

end Failing

/-! ## Arrivals -/

/-- A run of `p` from `s` comes to the occurrence at the end of a way in this session. -/
inductive Arrives (g : Environment) (fuel : Nat) (p : Program) (s : Session) :
    List Nat → Session → Prop where
  | start : Arrives g fuel p s [] (s.enter [])
  | into {path : List Nat} {place : Names × Node} {i : Nat} {t u : Session}
      (h : Arrives g fuel p s path t) (hplace : p.nodeAt? path = some place)
      (hstarts : Starts g fuel place.2 t i u) : Arrives g fuel p s (path ++ [i]) u

namespace Arrives

variable {g : Environment} {fuel : Nat} {p : Program} {s t : Session} {path : List Nat}

/-- One more step on a way. -/
theorem nodeAt?_snoc {place child : Names × Node} {i : Nat} (h : p.nodeAt? path = some place)
    (hchild : (place.2.children place.1)[i]? = some child) :
    p.nodeAt? (path ++ [i]) = some child := by
  unfold Program.nodeAt? at h ⊢
  rw [Node.nodeAt?_append h, Node.nodeAt?, hchild]
  rfl

theorem exists_place (h : Arrives g fuel p s path t) : ∃ place, p.nodeAt? path = some place := by
  cases h with
  | start => exact ⟨_, rfl⟩
  | into _ hplace hstarts =>
    obtain ⟨child, hchild⟩ := hstarts.child _
    exact ⟨child, nodeAt?_snoc hplace hchild⟩

theorem child (h : Arrives g fuel p s path t) {names : Names} {node : Node}
    (hplace : p.nodeAt? path = some (names, node)) {i : Nat} {u : Session}
    (hstarts : Starts g fuel node t i u) {child : Names × Node}
    (hchild : (node.children names)[i]? = some child) :
    Arrives g fuel p s (path ++ [i]) u ∧ p.nodeAt? (path ++ [i]) = some child :=
  ⟨.into h hplace hstarts, nodeAt?_snoc hplace hchild⟩

/-- A failure at an occurrence that a run comes to ends the run.  On its way out it takes the
names of the checkpoints along that it leaves. -/
theorem fails (h : Arrives g fuel p s path t) {place : Names × Node}
    (hplace : p.nodeAt? path = some place) {f : Failure} {u : Session}
    (hf : place.2.run g fuel t = (.failed f, u)) :
    ∃ left, (run g fuel p s).1 = .failed (f.outOf left) := by
  induction h generalizing place f u with
  | start =>
    obtain rfl := Option.some.inj hplace
    refine ⟨[], ?_⟩
    rw [Failure.outOf_nil]
    exact congrArg Prod.fst (inScope_fails hf)
  | into _ hparent hstarts ih =>
    obtain ⟨child, hchild⟩ := hstarts.child _
    obtain rfl := Option.some.inj ((nodeAt?_snoc hparent hchild).symm.trans hplace)
    obtain ⟨inner, v, hnode⟩ := hstarts.fails hchild hf
    obtain ⟨outer, hrun⟩ := ih hparent hnode
    exact ⟨inner ++ outer, by rw [hrun, ← Failure.outOf_append]⟩

end Arrives
end Script
end CheckScript
