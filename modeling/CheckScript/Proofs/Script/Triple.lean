/-
Assertions about runs.

A step of a script ends with a value, with a failure, or not at all.
`Run.Triple` says what holds in the first two cases; of a step that is unfinished it
asks nothing, since such a step has no outcome to speak of.  There is one rule for
each way in which the interpreter puts steps together, so that statements about whole
runs follow the syntax and never look into `Run` itself.
-/
import CheckScript.Script.Interpreter

namespace CheckScript
namespace Script
namespace Run

/-- From a session with `pre`, a step that ends well leaves `post` of its value and the
session, and one that fails leaves `fault` of the failure and the session. -/
def Triple {α : Type} (pre : Session → Prop) (m : Run α) (post : α → Session → Prop)
    (fault : Failure → Session → Prop) : Prop :=
  ∀ s, pre s →
    match m s with
    | (.done a, t) => post a t
    | (.failed f, t) => fault f t
    | (.unfinished _, _) => True

variable {α β : Type} {pre : Session → Prop} {post : α → Session → Prop}
  {fault : Failure → Session → Prop}

namespace Triple

theorem done {m : Run α} {a : α} {s t : Session} (h : Triple pre m post fault) (hs : pre s)
    (hm : m s = (.done a, t)) : post a t := by
  have := h s hs
  rwa [hm] at this

theorem failed {m : Run α} {f : Failure} {s t : Session} (h : Triple pre m post fault)
    (hs : pre s) (hm : m s = (.failed f, t)) : fault f t := by
  have := h s hs
  rwa [hm] at this

theorem weaken {pre' : Session → Prop} {post' : α → Session → Prop}
    {fault' : Failure → Session → Prop} {m : Run α} (h : Triple pre' m post' fault')
    (hpre : ∀ s, pre s → pre' s) (hpost : ∀ a t, post' a t → post a t)
    (hfault : ∀ f t, fault' f t → fault f t) : Triple pre m post fault := by
  intro s hs
  have hm := h s (hpre s hs)
  match hr : m s with
  | (.done a, t) =>
    rw [hr] at hm
    exact hpost a t hm
  | (.failed f, t) =>
    rw [hr] at hm
    exact hfault f t hm
  | (.unfinished _, _) => trivial

theorem pure {a : α} (h : ∀ s, pre s → post a s) : Triple pre (Pure.pure a) post fault :=
  fun s hs => h s hs

theorem bind {mid : β → Session → Prop} {m : Run β} {k : β → Run α}
    (hm : Triple pre m mid fault) (hk : ∀ b, Triple (mid b) (k b) post fault) :
    Triple pre (m >>= k) post fault := by
  intro s hs
  have hs' := hm s hs
  rw [bind_apply]
  match hr : m s with
  | (.done b, t) =>
    rw [hr] at hs'
    exact hk b t hs'
  | (.failed f, t) =>
    rw [hr] at hs'
    exact hs'
  | (.unfinished _, _) => trivial

theorem fail {f : Failure} (h : ∀ s, pre s → fault f s) : Triple pre (Run.fail f) post fault :=
  fun s hs => h s hs

/-- A pure operation ends well with its value or fails with its fault. -/
theorem onLine {line : Nat} {r : Except Fault α} (hok : ∀ a, r = .ok a → ∀ s, pre s → post a s)
    (herror : ∀ f, r = .error f → ∀ s, pre s → fault (.script line f []) s) :
    Triple pre (Run.onLine line r) post fault := by
  cases r with
  | ok a => exact pure (hok a rfl)
  | error f => exact fail (herror f rfl)

theorem inScope {body : Run Unit} {scope : Scope} {post : Unit → Session → Prop}
    (h : Triple (fun s => ∃ s', pre s' ∧ s = { s' with scopes := scope :: s'.scopes }) body
      (fun _ t => post () { t with scopes := t.scopes.drop 1 })
      (fun f t => fault f { t with scopes := t.scopes.drop 1 })) :
    Triple pre (Run.inScope scope body) post fault := by
  intro s hs
  have hbody := h { s with scopes := scope :: s.scopes } ⟨s, hs, rfl⟩
  unfold Run.inScope
  match hr : body { s with scopes := scope :: s.scopes } with
  | (.done (), t) =>
    rw [hr] at hbody
    exact hbody
  | (.failed f, t) =>
    rw [hr] at hbody
    exact hbody
  | (.unfinished _, _) => trivial

/-- A checkpoint notes its begin and its end; a failure takes its name along. -/
theorem checkpoint {pre' : Session → Prop} {post : Unit → Session → Prop} {name : String}
    {body : Run Unit}
    (henter : ∀ s, pre s → pre' { s with connection := s.connection.note s!"checkpoint '{name}'" })
    (hbody : Triple pre' body
      (fun a t => post a { t with connection := t.connection.note s!"checkpoint '{name}' passed" })
      (fun f t => fault (f.inCheckpoint name)
        { t with connection := t.connection.note s!"checkpoint '{name}' failed: {f.message}" })) :
    Triple pre (Run.checkpoint name body) post fault := by
  have hnote : Triple pre (Run.note s!"checkpoint '{name}'") (fun _ => pre') fault := henter
  refine bind hnote (fun _ s hs => ?_)
  have hb := hbody s hs
  match hr : body s with
  | (.done a, t) =>
    rw [hr] at hb
    exact hb
  | (.failed f, t) =>
    rw [hr] at hb
    exact hb
  | (.unfinished _, _) => trivial

/-- The invariant of a loop, whatever its fuel. -/
theorem whileTrue {inv : Session → Prop} {cond : Run Bool} {body : Run Unit} (fuel : Nat)
    (hcond : Triple inv cond (fun _ => inv) fault) (hbody : Triple inv body (fun _ => inv) fault) :
    Triple inv (Run.whileTrue fuel cond body) (fun _ => inv) fault := by
  induction fuel with
  | zero =>
    unfold Run.whileTrue
    refine bind hcond (fun b => ?_)
    cases b with
    | true => exact fun _ _ => trivial
    | false => exact pure (fun _ hs => hs)
  | succ fuel ih =>
    unfold Run.whileTrue
    refine bind hcond (fun b => ?_)
    cases b with
    | true => exact bind hbody (fun _ => ih)
    | false => exact pure (fun _ hs => hs)

theorem forEach {inv : Session → Prop} {body : Value → Run Unit} (vs : List Value)
    (hbody : ∀ v, Triple inv (body v) (fun _ => inv) fault) :
    Triple inv (Run.forEach body vs) (fun _ => inv) fault := by
  induction vs with
  | nil => exact pure (fun _ hs => hs)
  | cons v vs ih => exact bind (hbody v) (fun _ => ih)

end Triple
end Run

/-! ## A setting for small scripts -/

def quiet : Environment where
  tags := .empty
  source := ⟨"a.rs"⟩
  binary := ⟨"a"⟩
  timeout := defaultTimeout
  delta := none
  shell := fun _ files => ⟨.success, "", "", files⟩

/-- The output of the debugger has ended. -/
def silent : Session where
  connection := .start (.fixed [] true) .mi .empty
  files := ⟨.empty, []⟩
  scopes := []

end Script
end CheckScript
