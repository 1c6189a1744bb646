/-
Properties that every step of a script has.

The interpreter puts its steps together in few ways.  A property of steps that is closed under
them, `Run.Closed`, holds of every statement, and it is enough to look at a dozen small steps
to see that it does (`Run.Closed.exec`).  Expressions make do with fewer of them, which do not
touch the variables (`Run.Acting.eval`).  Most functions of scripts only look at values and
variables; what is closed under the steps of these is `Run.Plain`.  Steps that fail by
themselves name a line; the lines that a statement can name are those of its tree,
`Stmt.places`.
-/
import CheckScript.Proofs.Script.Origin
import CheckScript.Script.Interpreter

namespace CheckScript
namespace Script

/-- All operators but the logical ones evaluate both operands. -/
theorem eval_binary (g : Environment) (p : Position) {op : BinaryOp} (hand : op ≠ .and)
    (hor : op ≠ .or) (left right : Expr) :
    eval g (.binary p op left right) =
      eval g left >>= fun v => eval g right >>= fun w => Run.onLine p.line (op.apply v w) := by
  cases op <;> first | rfl | contradiction

/-- Functions that do more than to look at their arguments. -/
def Builtin.acts : Builtin → Bool
  | send | expect | log | buildDelta => true
  | _ => false

namespace Run

/-- A property of steps that is closed under looking at values and variables, as long as faults
and assertions are on lines with `P`. -/
structure Plain (P : Nat → Prop) (R : ∀ {α : Type}, Run α → Prop) : Prop where
  pure {α : Type} (a : α) : R (pure a : Run α)
  bind {α β : Type} {m : Run β} {k : β → Run α} : R m → (∀ b, R (k b)) → R (m >>= k)
  fault {α : Type} {line : Nat} (f : Fault) : P line → R (fail (.script line f []) : Run α)
  assertion {α : Type} {line : Nat} (message : String) :
    P line → R (fail (.assertion line message []) : Run α)
  scopes : R scopes

/-- A property of steps that is closed under what expressions are made of, as long as faults,
assertions and waits are on lines with `P`. -/
structure Acting (P : Nat → Prop) (R : ∀ {α : Type}, Run α → Prop) : Prop extends Plain P R where
  note (text : String) : R (note text)
  send (text : String) : R (send text)
  expect {line : Nat} (wanted : String) (timeout : Duration) :
    P line → R (expect line wanted timeout)
  buildDelta (g : Environment) (source target : String) : R (buildDelta g source target)

/-- A property of steps that is closed under what scripts are made of, as long as faults,
assertions and waits are on lines with `P`. -/
structure Closed (P : Nat → Prop) (R : ∀ {α : Type}, Run α → Prop) : Prop extends Acting P R where
  cutOff {α : Type} : R (cutOff : Run α)
  setScopes (scopes : Scopes) : R (setScopes scopes)
  inScope (scope : Scope) {body : Run Unit} : R body → R (inScope scope body)
  checkpoint (name : String) {body : Run Unit} : R body → R (checkpoint name body)

variable {P : Nat → Prop} {R : ∀ {α : Type}, Run α → Prop} {line : Nat}

/-! ## Functions -/

namespace Plain

variable (hR : Plain P R)

include hR

theorem onLine {α : Type} (hline : P line) (r : Except Fault α) : R (Run.onLine line r) := by
  cases r with
  | ok a => exact hR.pure a
  | error f => exact hR.fault f hline

theorem assertTrue (hline : P line) (args : List Value) : R (assertTrue line args) := by
  unfold Script.assertTrue
  split
  · exact hR.onLine hline _
  · exact hR.pure _
  · exact hR.assertion _ hline
  · exact hR.onLine hline _

theorem assertEqual (hline : P line) (wanted : Bool) (function : String) (args : List Value) :
    R (assertEqual line wanted function args) := by
  refine hR.bind (hR.onLine hline _) fun expected => hR.bind (hR.onLine hline _) fun actual => ?_
  simp only
  split
  · exact hR.pure _
  · split <;> exact hR.assertion _ hline

theorem callBuiltin (hline : P line) (g : Environment) {b : Builtin} (hb : b.acts = false)
    (args : List Value) : R (callBuiltin g line b args) := by
  cases b with
  | send | expect | log | buildDelta => exact nomatch hb
  | assert => exact hR.assertTrue hline args
  | assertEq | assertNe => exact hR.assertEqual hline _ _ args
  | format =>
    exact hR.bind (hR.onLine hline _) fun template => hR.bind (hR.onLine hline _) fun _ => hR.pure _
  | int => exact hR.onLine hline _
  | str | len => exact hR.bind (hR.onLine hline _) fun _ => hR.pure _
  | line | fileName =>
    refine hR.bind (hR.onLine hline _) fun _ => ?_
    split
    · exact hR.onLine hline _
    · exact hR.pure _

theorem methodCall (hline : P line) (v : Value) (name : String) (args : List Value) :
    R (methodCall line v name args) := by
  unfold Script.methodCall
  split <;> exact hR.onLine hline _

theorem lookup (hline : P line) (g : Environment) (name : String) : R (lookup g line name) := by
  refine hR.bind hR.scopes fun scopes => ?_
  split
  · exact hR.pure _
  · exact hR.onLine hline _

theorem asCondition (hline : P line) (v : Value) : R (asCondition line v) := by
  unfold Script.asCondition
  split
  · exact hR.pure _
  · exact hR.onLine hline _

end Plain

namespace Acting

variable (hR : Acting P R)

include hR

theorem callBuiltin (hline : P line) (g : Environment) (b : Builtin) (args : List Value) :
    R (callBuiltin g line b args) := by
  cases b with
  | send =>
    exact hR.bind (hR.onLine hline _) fun text => hR.bind (hR.send text) fun _ => hR.pure _
  | expect =>
    refine hR.bind (hR.onLine hline _) fun wanted => hR.bind (hR.onLine hline _) fun timeout => ?_
    exact hR.bind (hR.expect wanted timeout hline) fun _ => hR.pure _
  | log => exact hR.bind (hR.note _) fun _ => hR.pure _
  | buildDelta =>
    refine hR.bind (hR.onLine hline _) fun source => hR.bind (hR.onLine hline _) fun target => ?_
    exact hR.bind (hR.buildDelta g source target) fun _ => hR.pure _
  | _ => exact hR.toPlain.callBuiltin hline g rfl args

theorem call (hline : P line) (g : Environment) (name : String) (args : List Value) :
    R (call g line name args) := by
  unfold Script.call
  split
  · exact hR.onLine hline _
  · exact hR.callBuiltin hline g _ args

end Acting

namespace Closed

variable (hR : Closed P R)

include hR

theorem declare (name : String) (v : Value) : R (declare name v) :=
  hR.bind hR.scopes fun _ => hR.setScopes _

theorem assign (hline : P line) (name : String) (v : Value) : R (assign line name v) := by
  refine hR.bind hR.scopes fun scopes => ?_
  split
  · exact hR.setScopes _
  · exact hR.onLine hline _

theorem whileTrue (fuel : Nat) {cond : Run Bool} {body : Run Unit} (hcond : R cond)
    (hbody : R body) : R (Run.whileTrue fuel cond body) := by
  induction fuel with
  | zero =>
    unfold Run.whileTrue
    refine hR.bind hcond fun b => ?_
    cases b with
    | true => exact hR.cutOff
    | false => exact hR.pure ()
  | succ fuel ih =>
    unfold Run.whileTrue
    refine hR.bind hcond fun b => ?_
    cases b with
    | true => exact hR.bind hbody fun _ => ih
    | false => exact hR.pure ()

theorem forEach (vs : List Value) {body : Value → Run Unit} (hbody : ∀ v, R (body v)) :
    R (Run.forEach body vs) := by
  induction vs with
  | nil => exact hR.pure ()
  | cons v vs ih => exact hR.bind (hbody v) fun _ => ih

end Closed

/-! ## Expressions and statements -/

namespace Acting

mutual

theorem eval (hR : Acting P R) (g : Environment) (e : Expr) (h : ∀ p ∈ e.places, P p.line) :
    R (eval g e) := by
  have hline : P e.place.line := h _ e.place_mem
  cases e with
  | int p n | str p s | bool p b | null p => exact hR.pure _
  | list p items =>
    exact hR.bind (hR.evalAll g items (List.forall_mem_cons.mp h).2) fun vs => hR.pure _
  | ident p name => exact hR.lookup hline g name
  | unary p op operand =>
    exact hR.bind (hR.eval g operand (List.forall_mem_cons.mp h).2) fun v => hR.onLine hline _
  | binary p op left right =>
    obtain ⟨hl, hr⟩ := List.forall_mem_append.mp (List.forall_mem_cons.mp h).2
    have hleft := hR.eval g left hl
    have hright := hR.eval g right hr
    have hcond := fun l => hR.asCondition (hl _ left.place_mem) l
    have hdecided : R (Script.eval g right >>= fun r =>
        Script.asCondition right.line r >>= fun b => Pure.pure (Value.bool b)) :=
      hR.bind hright fun r => hR.bind (hR.asCondition (hr _ right.place_mem) r) fun _ => hR.pure _
    by_cases hand : op = .and
    · subst hand
      refine hR.bind hleft fun l => hR.bind (hcond l) fun b => ?_
      cases b with
      | true => exact hdecided
      | false => exact hR.pure _
    · by_cases hor : op = .or
      · subst hor
        refine hR.bind hleft fun l => hR.bind (hcond l) fun b => ?_
        cases b with
        | true => exact hR.pure _
        | false => exact hdecided
      · rw [eval_binary g p hand hor]
        exact hR.bind hleft fun v => hR.bind hright fun w => hR.onLine hline _
  | field p object name =>
    exact hR.bind (hR.eval g object (List.forall_mem_cons.mp h).2) fun v => hR.onLine hline _
  | index p object index =>
    obtain ⟨hobject, hindex⟩ := List.forall_mem_append.mp (List.forall_mem_cons.mp h).2
    exact hR.bind (hR.eval g object hobject) fun v =>
      hR.bind (hR.eval g index hindex) fun i => hR.onLine hline _
  | call p name args =>
    exact hR.bind (hR.evalAll g args (List.forall_mem_cons.mp h).2) fun vs =>
      hR.call hline g name vs
  | method p object name args =>
    obtain ⟨hobject, hargs⟩ := List.forall_mem_append.mp (List.forall_mem_cons.mp h).2
    exact hR.bind (hR.eval g object hobject) fun v =>
      hR.bind (hR.evalAll g args hargs) fun vs => hR.methodCall hline v name vs

theorem evalAll (hR : Acting P R) (g : Environment) (es : List Expr)
    (h : ∀ p ∈ placesAll es, P p.line) : R (evalAll g es) := by
  cases es with
  | nil => exact hR.pure _
  | cons e es =>
    obtain ⟨he, hes⟩ := List.forall_mem_append.mp h
    exact hR.bind (hR.eval g e he) fun v => hR.bind (hR.evalAll g es hes) fun vs => hR.pure _

end

theorem evalCondition (hR : Acting P R) (g : Environment) (e : Expr)
    (h : ∀ p ∈ e.places, P p.line) : R (evalCondition g e) :=
  hR.bind (hR.eval g e h) fun v => hR.asCondition (h _ e.place_mem) v

end Acting

namespace Closed

mutual

theorem exec (hR : Closed P R) (g : Environment) (fuel : Nat) (st : Stmt)
    (h : ∀ p ∈ st.places, P p.line) : R (exec g fuel st) := by
  cases st with
  | declare line name value =>
    exact hR.bind (hR.eval g value (List.forall_mem_cons.mp h).2) fun v => hR.declare name v
  | assign line name value =>
    obtain ⟨hline, hvalue⟩ := List.forall_mem_cons.mp h
    exact hR.bind (hR.eval g value hvalue) fun v => hR.assign hline name v
  | evaluate line e =>
    exact hR.bind (hR.eval g e (List.forall_mem_cons.mp h).2) fun _ => hR.pure ()
  | branch line cond body other =>
    obtain ⟨hcond, hrest⟩ := List.forall_mem_append.mp (List.forall_mem_cons.mp h).2
    obtain ⟨hbody, hother⟩ := List.forall_mem_append.mp hrest
    refine hR.bind (hR.evalCondition g cond hcond) fun b => ?_
    cases b with
    | true => exact hR.inScope [] (hR.execAll g fuel body hbody)
    | false => exact hR.execOther g fuel other hother
  | loop line cond body =>
    obtain ⟨hcond, hbody⟩ := List.forall_mem_append.mp (List.forall_mem_cons.mp h).2
    exact hR.whileTrue fuel (hR.evalCondition g cond hcond)
      (hR.inScope [] (hR.execAll g fuel body hbody))
  | each line name items body =>
    obtain ⟨hitems, hbody⟩ := List.forall_mem_append.mp (List.forall_mem_cons.mp h).2
    exact hR.bind (hR.eval g items hitems) fun v =>
      hR.bind (hR.onLine (hitems _ items.place_mem) _) fun vs =>
        hR.forEach vs fun w => hR.inScope [(name, w)] (hR.execAll g fuel body hbody)
  | block line body => exact hR.inScope [] (hR.execAll g fuel body (List.forall_mem_cons.mp h).2)
  | checkpoint line name body =>
    exact hR.checkpoint name (hR.inScope [] (hR.execAll g fuel body (List.forall_mem_cons.mp h).2))

theorem execAll (hR : Closed P R) (g : Environment) (fuel : Nat) (ss : List Stmt)
    (h : ∀ p ∈ stmtPlaces ss, P p.line) : R (execAll g fuel ss) := by
  cases ss with
  | nil => exact hR.pure ()
  | cons st ss =>
    obtain ⟨hst, hss⟩ := List.forall_mem_append.mp h
    exact hR.bind (hR.exec g fuel st hst) fun _ => hR.execAll g fuel ss hss

theorem execOther (hR : Closed P R) (g : Environment) (fuel : Nat) (other : Option Stmt)
    (h : ∀ p ∈ otherPlaces other, P p.line) : R (execOther g fuel other) := by
  cases other with
  | none => exact hR.pure ()
  | some st => exact hR.exec g fuel st h

end

end Closed
end Run
end Script
end CheckScript
