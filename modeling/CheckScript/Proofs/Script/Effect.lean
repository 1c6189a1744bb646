/-
What scripts do, one thing after another.

A run leaves behind what its effects leave behind (`replay`), and writes what they write
(`report`).  Besides calls of the debugger and changes of variables there are effects that open
and close: blocks, and checkpoints with their entries in the transcript.  Where a run stands is
what is open, and what is on its way out of it, if anything is: a failure, or the interruption
of the whole run.  `Standing.Step` says which effects may happen where.
-/
import CheckScript.Proofs.Connection.History
import CheckScript.Proofs.Script.Blame

namespace CheckScript

/-! ## Failures on their way out -/

namespace Failure

/-- The checkpoints whose names a failure carries, the innermost first. -/
def checkpoints : Failure → List String
  | script _ _ checkpoints | assertion _ _ checkpoints => checkpoints
  | _ => []

theorem checkpoints_of_outside {f : Failure} (h : f.scriptLine? = none) : f.checkpoints = [] := by
  cases f <;> first | rfl | exact nomatch h

end Failure

namespace Script

/-- What ends a run before its end. -/
inductive Exit where
  | failure (f : Failure)
  | interruption (why : Interruption)

namespace Exit

def checkpoints : Exit → List String
  | failure f => f.checkpoints
  | interruption _ => []

/-- A failure takes the name of a checkpoint along that it leaves. -/
def inCheckpoint (name : String) : Exit → Exit
  | failure f => .failure (f.inCheckpoint name)
  | interruption why => .interruption why

end Exit

/-- What comes out of a step that does not end well. -/
def Outcome.exit? {α : Type} : Outcome α → Option Exit
  | .done _ => none
  | .failed f => some (.failure f)
  | .unfinished why => some (.interruption why)

/-! ## Effects -/

inductive Effect where
  /-- A text was written, whether it has reached the debugger or not. -/
  | sent (text : String)
  /-- A wait that found its line. -/
  | awaited (wanted : String) (timeout : Duration)
  /-- A wait on line `line` that failed. -/
  | missed (line : Nat) (wanted : String) (timeout : Duration) (f : Failure)
  /-- A wait without a deadline. -/
  | stuck (wanted : String) (timeout : Duration)
  | generated (source target : String)
  | logged (text : String)
  | declared (name : String) (v : Value)
  | assigned (name : String) (v : Value)
  /-- Anything but a wait failed. -/
  | raised (f : Failure)
  /-- A loop was not run any further. -/
  | cutOff
  | opened (scope : Scope)
  | closed
  | entered (name : String)
  | passed (name : String)
  /-- A checkpoint was left by a failure. -/
  | failed (name : String) (f : Failure)
  /-- A checkpoint was left by an interruption, which nothing is noted of. -/
  | abandoned (name : String)

namespace Effect

/-- What an effect leaves behind. -/
def apply (g : Environment) : Effect → Session → Session
  | sent text, s => (Run.send text s).2
  | awaited wanted timeout, s =>
    { s with connection := (s.connection.expect wanted timeout).2 }
  | missed line wanted timeout f, s =>
    { s with
      connection := (s.connection.expect wanted timeout).2.note s!"line {line}: {f.message}" }
  | generated source target, s => (Run.buildDelta g source target s).2
  | logged text, s => { s with connection := s.connection.note text }
  | declared name v, s => { s with scopes := s.scopes.declare name v }
  | assigned name v, s => { s with scopes := (s.scopes.assign name v).getD s.scopes }
  | opened scope, s => { s with scopes := scope :: s.scopes }
  | closed, s => { s with scopes := s.scopes.drop 1 }
  | entered name, s => { s with connection := s.connection.note s!"checkpoint '{name}'" }
  | passed name, s => { s with connection := s.connection.note s!"checkpoint '{name}' passed" }
  | failed name f, s =>
    { s with connection := s.connection.note s!"checkpoint '{name}' failed: {f.message}" }
  | stuck .., s | raised _, s | cutOff, s | abandoned _, s => s

/-- The entry that a wait makes of its failure. -/
def complaint? : Effect → Option Entry
  | missed line _ _ f => some (.note s!"line {line}: {f.message}")
  | _ => none

/-- What the side of the script writes into the transcript at an effect. -/
def entries (c : Connection) : Effect → List Entry
  | sent text =>
    Connection.warnings (Connection.tokenOfCommand text) c.unanswered ++ [.sent text]
  | logged text => [.note text]
  | entered name => [.note s!"checkpoint '{name}'"]
  | passed name => [.note s!"checkpoint '{name}' passed"]
  | failed name f => [.note s!"checkpoint '{name}' failed: {f.message}"]
  | e => e.complaint?.toList

/-- What there is to an effect in the session in which it happens. -/
def Fits : Effect → Session → Prop
  | sent _, s => s.connection.closed = false
  | awaited wanted timeout, s =>
    s.connection.hasDeadline timeout = true ∧ ∃ r, (s.connection.await wanted timeout).1 = .ok r
  | missed _ wanted timeout f, s =>
    s.connection.hasDeadline timeout = true ∧ (s.connection.await wanted timeout).1 = .error f
  | stuck _ timeout, s => s.connection.hasDeadline timeout = false
  | assigned name v, s => (s.scopes.assign name v).isSome = true
  | _, _ => True

/-- What a script does on purpose, except for entering and leaving. -/
def isAct : Effect → Bool
  | sent _ | awaited .. | generated .. | logged _ | declared .. | assigned .. => true
  | _ => false

/-- The way out begins with the effect.  Waits, and only waits, note that they have failed. -/
def Begins (x : Exit) : Effect → Prop
  | missed _ _ _ f => x = .failure f ∧ f.ofWait = true
  | raised f => x = .failure f ∧ f.ofWait = false
  | stuck .. => x = .interruption .breakdown
  | cutOff => x = .interruption .loop
  | _ => False

end Effect

/-- The session behind these effects. -/
def replay (g : Environment) (effects : List Effect) (s : Session) : Session :=
  effects.foldl (fun s e => e.apply g s) s

/-- What the side of the script writes at these effects. -/
def report (g : Environment) : List Effect → Session → List Entry
  | [], _ => []
  | e :: effects, s => e.entries s.connection ++ report g effects (e.apply g s)

/-- Each of these effects fits where it happens. -/
def AllFit (g : Environment) : List Effect → Session → Prop
  | [], _ => True
  | e :: effects, s => e.Fits s ∧ AllFit g effects (e.apply g s)

section
variable (g : Environment)

theorem replay_append (before behind : List Effect) (s : Session) :
    replay g (before ++ behind) s = replay g behind (replay g before s) := List.foldl_append

theorem report_append (before behind : List Effect) (s : Session) :
    report g (before ++ behind) s = report g before s ++ report g behind (replay g before s) := by
  induction before generalizing s with
  | nil => rfl
  | cons e before ih =>
    rw [List.cons_append, report, ih, report, List.append_assoc]
    rfl

theorem allFit_append (before behind : List Effect) (s : Session) :
    AllFit g (before ++ behind) s ↔ AllFit g before s ∧ AllFit g behind (replay g before s) := by
  induction before generalizing s with
  | nil => exact (and_iff_right trivial).symm
  | cons e before ih =>
    rw [List.cons_append, AllFit, ih, AllFit, and_assoc]
    rfl

/-- An effect writes its entries, and nothing else is written on the side of the script. -/
theorem own_apply {e : Effect} {s : Session} (h : e.Fits s) :
    (e.apply g s).connection.transcript.own =
      s.connection.transcript.own ++ e.entries s.connection := by
  cases e with
  | sent text => exact Connection.own_send h text
  | awaited wanted timeout =>
    exact (s.connection.own_expect wanted timeout).trans (List.append_nil _).symm
  | missed line wanted timeout f =>
    refine (Connection.own_note _ _).trans ?_
    rw [Connection.own_expect]
    rfl
  | generated source target =>
    have hsame : (Run.buildDelta g source target s).2.connection = s.connection := by
      unfold Run.buildDelta
      split <;> rfl
    show (Run.buildDelta g source target s).2.connection.transcript.own = _
    rw [hsame]
    exact (List.append_nil _).symm
  | logged | entered | passed | failed => exact Connection.own_note _ _
  | stuck | declared | assigned | raised | cutOff | opened | closed | abandoned =>
    exact (List.append_nil _).symm

theorem own_replay {effects : List Effect} {s : Session} (h : AllFit g effects s) :
    (replay g effects s).connection.transcript.own =
      s.connection.transcript.own ++ report g effects s := by
  induction effects generalizing s with
  | nil => exact (List.append_nil _).symm
  | cons e effects ih =>
    obtain ⟨hfirst, hrest⟩ := h
    show (replay g effects (e.apply g s)).connection.transcript.own = _
    rw [ih hrest, own_apply g hfirst, report, List.append_assoc]

end

/-! ## Where a run stands -/

inductive Frame where
  | block
  | checkpoint (name : String)

/-- What is open, the innermost first, and what is on its way out of it. -/
structure Standing where
  frames : List Frame
  exit : Option Exit

/-- The effect by which a checkpoint is left before its end. -/
def Exit.leave (name : String) : Exit → Effect
  | failure f => .failed name f
  | interruption _ => .abandoned name

namespace Standing

/-- What may happen, and where the run stands afterwards.  A checkpoint that is left has
passed, failed or been abandoned, as there is nothing, a failure or an interruption to leave it. -/
inductive Step : Standing → Effect → Standing → Prop where
  | act {frames : List Frame} {e : Effect} :
    e.isAct = true → Step ⟨frames, none⟩ e ⟨frames, none⟩
  | out {frames : List Frame} {e : Effect} {x : Exit} :
    e.Begins x → x.checkpoints = [] → Step ⟨frames, none⟩ e ⟨frames, some x⟩
  | opened {frames : List Frame} (scope : Scope) :
    Step ⟨frames, none⟩ (.opened scope) ⟨.block :: frames, none⟩
  | closed {frames : List Frame} (exit : Option Exit) :
    Step ⟨.block :: frames, exit⟩ .closed ⟨frames, exit⟩
  | entered {frames : List Frame} (name : String) :
    Step ⟨frames, none⟩ (.entered name) ⟨.checkpoint name :: frames, none⟩
  | passed {frames : List Frame} (name : String) :
    Step ⟨.checkpoint name :: frames, none⟩ (.passed name) ⟨frames, none⟩
  | left {frames : List Frame} (name : String) (x : Exit) :
    Step ⟨.checkpoint name :: frames, some x⟩ (x.leave name) ⟨frames, some (x.inCheckpoint name)⟩

end Standing

open Standing (Step)

/-- Effects that may happen one after another. -/
inductive Course : Standing → List Effect → Standing → Prop where
  | nil (w : Standing) : Course w [] w
  | cons {u v w : Standing} {e : Effect} {effects : List Effect} :
    Step u e v → Course v effects w → Course u (e :: effects) w

namespace Course

variable {u v w : Standing} {e : Effect} {before behind : List Effect}

theorem single (h : Step u e v) : Course u [e] v := .cons h (.nil v)

theorem append (h : Course u before v) (h' : Course v behind w) :
    Course u (before ++ behind) w := by
  induction h with
  | nil => exact h'
  | cons hstep _ ih => exact .cons hstep (ih h')

end Course
end Script
end CheckScript
