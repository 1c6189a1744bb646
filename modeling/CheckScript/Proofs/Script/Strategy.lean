/-
What a script does to its connection, as a tree.

Of the connection a script sees only what its calls of `send` and `expect` come to.  So a
step, from given files and scopes, follows a strategy: a tree that says what to do next,
depending on what came of the last call (`Interactive`).  There is one rule for each way in
which the interpreter puts steps together, and by these rules every block follows a
strategy (`execAll_interactive`).  What holds of two connections that answer alike can then be
proved by induction on strategies, with no look into the interpreter.
-/
import CheckScript.Proofs.Script.Closed
import Mathlib.Tactic.Choose

namespace CheckScript
namespace Script

/-- What a step does to a connection.  Files and scopes come in at its end only, since
nothing on the connection depends on them. -/
inductive Strategy (α : Type) where
  | done (outcome : Outcome α) (files : Files) (scopes : Scopes)
  | note (text : String) (next : Strategy α)
  | send (text : String) (next : Except Failure Unit → Strategy α)
  | expect (wanted : String) (timeout : Duration)
      (next : Option (Except Failure Record) → Strategy α)

/-- A call of `expect`, with the record or the failure that came of it, if any did. -/
structure Wait where
  wanted : String
  result : Option (Except Failure Record)

namespace Strategy

variable {α β : Type}

/-- Follow a strategy on a connection. -/
def play : Strategy α → Connection → Outcome α × Session
  | done outcome files scopes, c => (outcome, ⟨c, files, scopes⟩)
  | note text next, c => next.play (c.note text)
  | send text next, c => (next (c.send text).1).play (c.send text).2
  | expect wanted timeout next, c =>
    (next (c.expect wanted timeout).1).play (c.expect wanted timeout).2

/-- The calls of `expect` when a strategy is followed on a connection, in order. -/
def waits : Strategy α → Connection → List Wait
  | done _ _ _, _ => []
  | note text next, c => next.waits (c.note text)
  | send text next, c => (next (c.send text).1).waits (c.send text).2
  | expect wanted timeout next, c =>
    ⟨wanted, (c.expect wanted timeout).1⟩ ::
      (next (c.expect wanted timeout).1).waits (c.expect wanted timeout).2

/-- Go on with another strategy, which may depend on how the first one ended. -/
def andThen (k : Outcome α → Files → Scopes → Strategy β) : Strategy α → Strategy β
  | done outcome files scopes => k outcome files scopes
  | note text next => .note text (next.andThen k)
  | send text next => .send text fun r => (next r).andThen k
  | expect wanted timeout next => .expect wanted timeout fun r => (next r).andThen k

theorem play_andThen (k : Outcome α → Files → Scopes → Strategy β) (σ : Strategy α)
    (c : Connection) :
    (σ.andThen k).play c =
      (k (σ.play c).1 (σ.play c).2.files (σ.play c).2.scopes).play (σ.play c).2.connection := by
  induction σ generalizing c with
  | done outcome files scopes => rfl
  | note text next ih => exact ih _
  | send text next ih => exact ih _ _
  | expect wanted timeout next ih => exact ih _ _

end Strategy

variable {α β : Type}

/-- On every connection, a step from these files and scopes does what the strategy says. -/
def Follows (m : Run α) (files : Files) (scopes : Scopes) (σ : Strategy α) : Prop :=
  ∀ c, m ⟨c, files, scopes⟩ = σ.play c

/-- From all files and scopes, a step follows a strategy. -/
def Interactive (m : Run α) : Prop := ∀ files scopes, ∃ σ, Follows m files scopes σ

namespace Interactive

/-! ## Rules for steps -/

/-- A step that has nothing to do with the connection. -/
theorem apart {m : Run α} (outcome : Files → Scopes → Outcome α) (files' : Files → Scopes → Files)
    (scopes' : Files → Scopes → Scopes)
    (h : ∀ c files scopes, m ⟨c, files, scopes⟩ =
      (outcome files scopes, ⟨c, files' files scopes, scopes' files scopes⟩)) :
    Interactive m :=
  fun files scopes => ⟨.done _ _ _, fun c => h c files scopes⟩

theorem pure (a : α) : Interactive (Pure.pure a : Run α) :=
  apart (fun _ _ => .done a) (fun files _ => files) (fun _ scopes => scopes) fun _ _ _ => rfl

theorem fail (f : Failure) : Interactive (Run.fail f : Run α) :=
  apart (fun _ _ => .failed f) (fun files _ => files) (fun _ scopes => scopes) fun _ _ _ => rfl

theorem unfinished (why : Interruption) : Interactive fun s => (.unfinished (α := α) why, s) :=
  apart (fun _ _ => .unfinished why) (fun files _ => files) (fun _ scopes => scopes)
    fun _ _ _ => rfl

theorem scopes : Interactive Run.scopes :=
  apart (fun _ scopes => .done scopes) (fun files _ => files) (fun _ scopes => scopes)
    fun _ _ _ => rfl

theorem setScopes (scopes : Scopes) : Interactive (Run.setScopes scopes) :=
  apart (fun _ _ => .done ()) (fun files _ => files) (fun _ _ => scopes) fun _ _ _ => rfl

theorem note (text : String) : Interactive (Run.note text) :=
  fun files scopes => ⟨.note text (.done (.done ()) files scopes), fun _ => rfl⟩

theorem send (text : String) : Interactive (Run.send text) :=
  fun files scopes => ⟨.send text fun r => .done (Run.ofExcept r) files scopes, fun _ => rfl⟩

/-- A wait that fails leaves a note, and one without a deadline leaves nothing. -/
theorem expect (line : Nat) (wanted : String) (timeout : Duration) :
    Interactive (Run.expect line wanted timeout) := by
  intro files scopes
  let next : Option (Except Failure Record) → Strategy Record
    | none => .done (.unfinished .breakdown) files scopes
    | some (.ok r) => .done (.done r) files scopes
    | some (.error f) => .note s!"line {line}: {f.message}" (.done (.failed f) files scopes)
  refine ⟨.expect wanted timeout next, fun c => ?_⟩
  rw [Strategy.play]
  unfold Run.expect
  match h : c.expect wanted timeout with
  | (none, d) => rfl
  | (some (.ok r), d) => rfl
  | (some (.error f), d) => rfl

theorem buildDelta (g : Environment) (source target : String) :
    Interactive (Run.buildDelta g source target) := by
  intro files scopes
  cases hdelta : g.delta with
  | none =>
    refine ⟨.done (.failed (.delta target .notConfigured)) files scopes, fun c => ?_⟩
    unfold Run.buildDelta
    rw [hdelta]
    rfl
  | some generator =>
    refine ⟨.done (Run.ofExcept (generator.build g.shell source target files).1)
      (generator.build g.shell source target files).2 scopes, fun c => ?_⟩
    unfold Run.buildDelta
    rw [hdelta]
    rfl

/-! ## Rules for steps that are put together -/

/-- A step that goes on behind another one, however that one ended. -/
theorem andThen {m : Run α} {k : Outcome α → Run β} {n : Run β} (hm : Interactive m)
    (hk : ∀ o, Interactive (k o)) (hn : ∀ s, n s = k (m s).1 (m s).2) : Interactive n := by
  intro files scopes
  obtain ⟨σ, hσ⟩ := hm files scopes
  choose τ hτ using hk
  refine ⟨σ.andThen τ, fun c => ?_⟩
  rw [hn, hσ, Strategy.play_andThen]
  exact hτ _ _ _ _

theorem bind {m : Run α} {k : α → Run β} (hm : Interactive m) (hk : ∀ a, Interactive (k a)) :
    Interactive (m >>= k) := by
  let next : Outcome α → Run β
    | .done a => k a
    | .failed f => Run.fail f
    | .unfinished why => fun s => (.unfinished why, s)
  refine andThen (k := next) hm (fun o => ?_) (fun s => ?_)
  · cases o with
    | done a => exact hk a
    | failed f => exact fail f
    | unfinished why => exact unfinished why
  · rw [Run.bind_apply]
    match m s with
    | (.done a, t) => rfl
    | (.failed f, t) => rfl
    | (.unfinished why, t) => rfl

theorem inScope (scope : Scope) {body : Run Unit} (hbody : Interactive body) :
    Interactive (Run.inScope scope body) := by
  -- the body's strategy from the scopes of the block, not from those around it
  have henter : Interactive fun s => body { s with scopes := scope :: s.scopes } :=
    fun files scopes => hbody files (scope :: scopes)
  have hleave : ∀ o : Outcome Unit,
      Interactive fun t => (o, { t with scopes := t.scopes.drop 1 }) := fun o =>
    apart (fun _ _ => o) (fun files _ => files) (fun _ scopes => scopes.drop 1) fun _ _ _ => rfl
  exact andThen henter hleave fun _ => rfl

theorem checkpoint (name : String) {body : Run Unit} (hbody : Interactive body) :
    Interactive (Run.checkpoint name body) := by
  let leave : Outcome Unit → Run Unit
    | .done _ => Run.note s!"checkpoint '{name}' passed"
    | .failed f => fun t => (.failed (f.inCheckpoint name),
        { t with connection := t.connection.note s!"checkpoint '{name}' failed: {f.message}" })
    | .unfinished why => fun t => (.unfinished why, t)
  refine bind (note _) fun _ => andThen (k := leave) hbody (fun o => ?_) (fun s => ?_)
  · cases o with
    | done a => exact note _
    | failed f =>
      intro files scopes
      exact ⟨.note _ (.done (.failed (f.inCheckpoint name)) files scopes), fun _ => rfl⟩
    | unfinished why => exact unfinished why
  · match body s with
    | (.done _, t) => rfl
    | (.failed f, t) => rfl
    | (.unfinished why, t) => rfl

theorem closed : Run.Closed (fun _ => True) fun {_} m => Interactive m where
  pure := .pure
  bind := .bind
  fault _ _ := .fail _
  assertion _ _ := .fail _
  cutOff := .unfinished .loop
  scopes := .scopes
  setScopes := .setScopes
  note := .note
  send := .send
  expect wanted timeout _ := .expect _ wanted timeout
  buildDelta := .buildDelta
  inScope := .inScope
  checkpoint := .checkpoint

end Interactive

theorem execAll_interactive (g : Environment) (fuel : Nat) (ss : List Stmt) :
    Interactive (execAll g fuel ss) := Interactive.closed.execAll g fuel ss fun _ _ => trivial

end Script
end CheckScript
