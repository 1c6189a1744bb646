/-
Scripts stop where they fail.

While nothing is on its way out of what is open, nothing has been (`Course.untroubled`).  Once
there is a failure or an interruption, nothing may happen but that it leaves: blocks end, and
checkpoints note a failure, though no interruption (`Course.leaves`).  So a run that fails goes
well up to the beginning of its failure, and behind that come the ends of what is open there
(`run_stops`).
-/
import CheckScript.Proofs.Script.Story

namespace CheckScript

/-! ## Failures that leave checkpoints -/

namespace Failure

/-- The failure once it has left these checkpoints, the innermost first. -/
def outOf (names : List String) : Failure → Failure
  | script line fault checkpoints => .script line fault (checkpoints ++ names)
  | assertion line message checkpoints => .assertion line message (checkpoints ++ names)
  | f => f

theorem outOf_nil (f : Failure) : f.outOf [] = f := by
  cases f with
  | script line fault checkpoints => rw [outOf, List.append_nil]
  | assertion line message checkpoints => rw [outOf, List.append_nil]
  | _ => rfl

theorem inCheckpoint_outOf (name : String) (names : List String) (f : Failure) :
    (f.inCheckpoint name).outOf names = f.outOf (name :: names) := by
  cases f with
  | script line fault checkpoints => rw [inCheckpoint, outOf, outOf, List.append_assoc]; rfl
  | assertion line message checkpoints =>
    rw [inCheckpoint, outOf, outOf, List.append_assoc]; rfl
  | _ => rfl

theorem scriptLine?_outOf (names : List String) (f : Failure) :
    (f.outOf names).scriptLine? = f.scriptLine? := by
  cases f <;> rfl

theorem within_append (front text : String) (names : List String) :
    within (front ++ text) names = front ++ within text names := by
  induction names generalizing text with
  | nil => rfl
  | cons name names ih =>
    have hmove : front ++ text ++ " (in checkpoint '" ++ name ++ "')" =
        front ++ (text ++ " (in checkpoint '" ++ name ++ "')") := by
      simp only [String.append_assoc]
    exact (congrArg (within · names) hmove).trans (ih _)

theorem within_within (text : String) (names more : List String) :
    within text (names ++ more) = within (within text names) more := List.foldl_append

/-- Only the messages of faults and assertions gain names. -/
theorem message_outOf (names : List String) (f : Failure) :
    (f.outOf names).message =
      if f.scriptLine?.isSome then within f.message names else f.message := by
  cases f with
  | script line fault checkpoints =>
    show _ = within ("Script error at line " ++ toString line ++ ": " ++
      within fault.message checkpoints) names
    rw [within_append, ← within_within]
    rfl
  | assertion line message checkpoints =>
    show _ = within ("Assertion failed at line " ++ toString line ++ ": " ++
      within message checkpoints) names
    rw [within_append, ← within_within]
    rfl
  | _ => rfl

end Failure

namespace Script

def Frame.name? : Frame → Option String
  | block => none
  | checkpoint name => some name

namespace Exit

/-- What comes out of these checkpoints, the innermost first. -/
def outOf (names : List String) : Exit → Exit
  | failure f => .failure (f.outOf names)
  | interruption why => .interruption why

theorem outOf_nil (x : Exit) : x.outOf [] = x := by
  cases x with
  | failure f => exact congrArg _ f.outOf_nil
  | interruption => rfl

theorem inCheckpoint_outOf (name : String) (names : List String) (x : Exit) :
    (x.inCheckpoint name).outOf names = x.outOf (name :: names) := by
  cases x with
  | failure f => exact congrArg _ (f.inCheckpoint_outOf name names)
  | interruption => rfl

/-- What is noted when these checkpoints are left, the innermost first.  Each of them quotes the
failure with the names of those inside it. -/
def notes : Exit → List String → List Entry
  | failure f, name :: names =>
    .note s!"checkpoint '{name}' failed: {f.message}" :: notes (.failure (f.inCheckpoint name)) names
  | failure _, [] | interruption _, _ => []

theorem notes_interruption (why : Interruption) (names : List String) :
    (interruption why).notes names = [] := by
  cases names <;> rfl

end Exit

/-- The effects by which these frames are left before their ends, the innermost first. -/
def leaving (x : Exit) : List Frame → List Effect
  | [] => []
  | .block :: frames => .closed :: leaving x frames
  | .checkpoint name :: frames => x.leave name :: leaving (x.inCheckpoint name) frames

/-- All that is written while frames are left are the notes about the checkpoints. -/
theorem report_leaving (g : Environment) (x : Exit) (frames : List Frame) (s : Session) :
    report g (leaving x frames) s = x.notes (frames.filterMap Frame.name?) := by
  induction frames generalizing x s with
  | nil => cases x <;> rfl
  | cons frame frames ih =>
    cases frame with
    | block => exact ih x _
    | checkpoint name =>
      cases x with
      | failure f => exact congrArg (_ :: ·) (ih (.failure (f.inCheckpoint name)) _)
      | interruption why =>
        rw [Exit.notes_interruption]
        exact (ih (.interruption why) s).trans (Exit.notes_interruption why _)

/-- What is noted where a checkpoint is left. -/
theorem report_leave (g : Environment) (name : String) (o : Outcome Unit) (s : Session) :
    report g [Story.leave name o] s =
      match o with
      | .done _ => [.note s!"checkpoint '{name}' passed"]
      | .failed f => [.note s!"checkpoint '{name}' failed: {f.message}"]
      | .unfinished _ => [] := by
  cases o <;> rfl

/-- The effect is the beginning of a way out, or a checkpoint is left by it. -/
def Effect.isTrouble : Effect → Bool
  | missed .. | stuck .. | raised _ | cutOff | failed .. | abandoned _ => true
  | _ => false

/-- Where nothing is on its way out, an effect is the beginning of that or no trouble. -/
theorem Standing.Step.calm_or_out {frames : List Frame} {e : Effect} {w : Standing}
    (h : Standing.Step ⟨frames, none⟩ e w) :
    (e.isTrouble = false ∧ ∃ inner, w = ⟨inner, none⟩) ∨
      ∃ x, e.Begins x ∧ x.checkpoints = [] ∧ w = ⟨frames, some x⟩ := by
  cases h with
  | act hact =>
    refine .inl ⟨?_, _, rfl⟩
    cases e <;> first | rfl | exact nomatch hact
  | out hbegins hnew => exact .inr ⟨_, hbegins, hnew, rfl⟩
  | opened | closed | entered | passed => exact .inl ⟨rfl, _, rfl⟩

/-- Of all that begins a way out, only a wait that fails writes an entry. -/
theorem Effect.Begins.entries {e : Effect} {x : Exit} (h : e.Begins x) (c : Connection) :
    e.entries c = e.complaint?.toList := by
  cases e <;> first | rfl | exact nomatch h

namespace Course

variable {w : Standing} {effects : List Effect} {frames rest : List Frame} {x : Exit}

/-- What is on its way out stays on its way, and does nothing but leave. -/
theorem leaves (h : Course ⟨frames, some x⟩ effects w) :
    ∃ left, frames = left ++ w.frames ∧ effects = leaving x left ∧
      w.exit = some (x.outOf (left.filterMap Frame.name?)) := by
  induction effects generalizing frames x with
  | nil =>
    cases h
    exact ⟨[], rfl, rfl, congrArg some x.outOf_nil.symm⟩
  | cons e effects ih =>
    cases h with
    | cons hstep hrest =>
      cases hstep with
      | closed =>
        obtain ⟨left, rfl, rfl, hexit⟩ := ih hrest
        exact ⟨.block :: left, rfl, rfl, hexit⟩
      | left name =>
        obtain ⟨left, rfl, rfl, hexit⟩ := ih hrest
        rw [x.inCheckpoint_outOf] at hexit
        exact ⟨.checkpoint name :: left, rfl, rfl, hexit⟩

/-- Where nothing is on its way out, nothing has been. -/
theorem untroubled (h : Course ⟨frames, none⟩ effects ⟨rest, none⟩) :
    ∀ e ∈ effects, e.isTrouble = false := by
  induction effects generalizing frames with
  | nil => exact fun _ he => nomatch he
  | cons e effects ih =>
    cases h with
    | cons hstep hrest =>
      rcases hstep.calm_or_out with ⟨hcalm, inner, rfl⟩ | ⟨first, -, -, rfl⟩
      · exact List.forall_mem_cons.mpr ⟨hcalm, ih hrest⟩
      · obtain ⟨_, _, _, hexit⟩ := hrest.leaves
        exact nomatch hexit

/-- A course that ends with something on its way out goes well up to an effect with which that
begins, and from there on what is open is left. -/
theorem breaks (h : Course ⟨frames, none⟩ effects ⟨rest, some x⟩) :
    ∃ before cause first left,
      effects = before ++ cause :: leaving first left ∧
      Course ⟨frames, none⟩ before ⟨left ++ rest, none⟩ ∧
      cause.Begins first ∧ first.checkpoints = [] ∧
      x = first.outOf (left.filterMap Frame.name?) := by
  induction effects generalizing frames with
  | nil => cases h
  | cons e effects ih =>
    cases h with
    | cons hstep hrest =>
      rcases hstep.calm_or_out with ⟨-, inner, rfl⟩ | ⟨first, hbegins, hnew, rfl⟩
      -- what is open may have changed, but not what is open around the whole course
      · obtain ⟨before, cause, first, left, rfl, hbefore, hcause⟩ := ih hrest
        exact ⟨e :: before, cause, first, left, rfl, .cons hstep hbefore, hcause⟩
      · obtain ⟨left, rfl, rfl, hexit⟩ := hrest.leaves
        exact ⟨[], e, first, left, rfl, .nil _, hbegins, hnew, Option.some.inj hexit⟩

end Course

/-- A run that does `effects` from `s` on goes well up to the effect `cause`.  With that begins
`first`, which leaves what is `opened` there, and comes out as `last`. -/
structure BrokenOff (g : Environment) (s : Session) (effects before : List Effect) (cause : Effect)
    (first : Exit) (opened : List Frame) (last : Exit) : Prop where
  effects_eq : effects = before ++ cause :: leaving first opened
  course : Course ⟨[], none⟩ before ⟨opened, none⟩
  calm : ∀ e ∈ before, e.isTrouble = false
  begins : cause.Begins first
  unnamed : first.checkpoints = []
  last_eq : last = first.outOf (opened.filterMap Frame.name?)
  report_eq : report g effects s =
    report g before s ++ (cause.complaint?.toList ++ first.notes (opened.filterMap Frame.name?))

theorem Course.brokenOff {effects : List Effect} {x : Exit}
    (h : Course ⟨[], none⟩ effects ⟨[], some x⟩) (g : Environment) (s : Session) :
    ∃ before cause first opened, BrokenOff g s effects before cause first opened x := by
  obtain ⟨before, cause, first, opened, rfl, hbefore, hbegins, hnew, rfl⟩ := h.breaks
  rw [List.append_nil] at hbefore
  refine ⟨before, cause, first, opened, rfl, hbefore, hbefore.untroubled, hbegins, hnew, rfl, ?_⟩
  rw [report_append, report, report_leaving, hbegins.entries]

/-- The effects of a run lead to where it leads, and write what the side of the script writes.
Each checkpoint is entered, and behind its body it is left, with a note: it has passed exactly if
the body ended well, and failed exactly if the body failed.

A run that ends well leaves all that it opens, the innermost first, and every checkpoint
passes.  A run that fails goes well up to one effect, with which its failure begins; from there
on it does nothing but leave what is open, the innermost first.  So each checkpoint that is
open there is left once, by the failure with the names of those inside, and the failure that
comes out is the first one with the names of all of these.  Nothing else is written then, except
for the note of a wait about its failure.

A run that is interrupted, by a wait without a deadline or a loop that is cut off, goes well up to
there.  What is open there is left without a note. -/
theorem run_stops (g : Environment) (fuel : Nat) (p : Program) (s : Session) :
    let effects := (Story.run g fuel p).effects s
    (run g fuel p s).2 = replay g effects s ∧ AllFit g effects s ∧
    (run g fuel p s).2.connection.transcript.own =
      s.connection.transcript.own ++ report g effects s ∧
    (∀ line name body t,
      let inside := (Effect.entered name).apply g t
      let inner := (Story.exec g fuel (.block line body)).effects inside
      (Story.exec g fuel (.checkpoint line name body)).effects t =
        .entered name :: (inner ++ [match (exec g fuel (.block line body) inside).1 with
          | .done _ => .passed name
          | .failed f => .failed name f
          | .unfinished _ => .abandoned name]) ∧
      (exec g fuel (.checkpoint line name body) t).2.connection.transcript.own =
        t.connection.transcript.own ++ .note s!"checkpoint '{name}'" :: (report g inner inside ++
          match (exec g fuel (.block line body) inside).1 with
          | .done _ => [.note s!"checkpoint '{name}' passed"]
          | .failed f => [.note s!"checkpoint '{name}' failed: {f.message}"]
          | .unfinished _ => [])) ∧
    match (run g fuel p s).1 with
    | .done _ => Course ⟨[], none⟩ effects ⟨[], none⟩ ∧ ∀ e ∈ effects, e.isTrouble = false
    | .failed f =>
      Course ⟨[], none⟩ effects ⟨[], some (.failure f)⟩ ∧
      ∃ before cause first opened,
        BrokenOff g s effects before cause (.failure first) opened (.failure f) ∧
        let names := opened.filterMap Frame.name?
        f = first.outOf names ∧ f.scriptLine? = first.scriptLine? ∧
        f.message =
          if first.scriptLine?.isSome then Failure.within first.message names else first.message
    | .unfinished why =>
      Course ⟨[], none⟩ effects ⟨[], some (.interruption why)⟩ ∧
      ∃ before cause opened,
        BrokenOff g s effects before cause (.interruption why) opened (.interruption why) := by
  intro effects
  refine ⟨((Story.run g fuel p).replays s).symm, (Story.run g fuel p).fits s,
    (Story.run g fuel p).own s, fun line name body t => ⟨rfl, ?_⟩, ?_⟩
  · rw [(Story.exec g fuel (.checkpoint line name body)).own t]
    show _ ++ (_ :: report g (_ ++ [Story.leave name _]) _) = _
    rw [report_append, report_leave]
    rfl
  have hends := (Story.run g fuel p).ends s []
  match (run g fuel p s).1, hends with
  | .done _, hends => exact ⟨hends, hends.untroubled⟩
  | .failed f, hends =>
    obtain ⟨before, cause, first, opened, hbroken⟩ := Course.brokenOff hends g s
    cases first with
    | failure first =>
      obtain rfl := Exit.failure.inj hbroken.last_eq
      exact ⟨hends, before, cause, first, opened, hbroken, rfl, first.scriptLine?_outOf _,
        first.message_outOf _⟩
    | interruption why => exact nomatch hbroken.last_eq
  | .unfinished why, hends =>
    obtain ⟨before, cause, first, opened, hbroken⟩ := Course.brokenOff hends g s
    cases first with
    | failure first => exact nomatch hbroken.last_eq
    | interruption first =>
      obtain rfl := Exit.interruption.inj hbroken.last_eq
      exact ⟨hends, before, cause, opened, hbroken⟩

/-- A checkpoint with a wait of the longest time that a script can give.  The line that is waited
for is there, but the run is over before anybody looks at it.  The checkpoint is entered and
neither passes nor fails. -/
theorem checkpoint_without_end :
    let wait : Expr :=
      .call ⟨2, 3⟩ "expect" [.str ⟨2, 10⟩ "1^", .int ⟨2, 16⟩ 9223372036854775807]
    let s : Session :=
      { silent with connection := .start (.fixed ["1^done"] true) .mi .empty }
    let r := run quiet 0 ⟨[.checkpoint 1 "c" [.evaluate 2 wait]]⟩ s
    s.connection.pending = ["1^done"] ∧ Text.startsWith "1^done" "1^" = true ∧
      r.1 = .unfinished .breakdown ∧ r.2.connection.pending = ["1^done"] ∧
      r.2.connection.transcript.own = [.note "checkpoint 'c'"] := by
  refine ⟨rfl, by decide +kernel, rfl, by decide +kernel, by decide +kernel⟩

example (g : Environment) (s : Session) :
    let broken := Stmt.evaluate 2 (.unary ⟨2, 5⟩ .not (.int ⟨2, 6⟩ 7))
    (Story.run g 0 ⟨[.checkpoint 1 "outer" [broken]]⟩).effects s =
      [.opened [], .entered "outer", .opened [], .raised (.script 2 (.notLogical .int) []),
        .closed, .failed "outer" (.script 2 (.notLogical .int) []), .closed] := rfl

end Script
end CheckScript
