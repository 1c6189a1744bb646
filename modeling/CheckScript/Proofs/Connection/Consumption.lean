/-
Lines are consumed in order, each of them once.

`Settled ended c` says that the debugger has written all that it will ever write, and that
its output ends at once (`ended`) or not before it is closed.  Operations keep this up
(`Settled.perform`), and of all operations only `expect` takes lines: those up to the first
that begins as wanted (`await_pending`).  So the lines taken in a run, one operation after
the other, are what the output begins with (`consumed_append_pending`).

A wait begins with its deadline.  Where the clock cannot tell that time, the program breaks down
before it looks at a line, and nothing is taken (`expect_in_order`).
-/
import CheckScript.Proofs.Connection.Operation

namespace CheckScript
namespace Connection

/-! ## Consuming a queue -/

/-- What an expect makes of the first line that begins as wanted. -/
def answer (format : RecordFormat) (missing : Failure) : Option String → Except Failure Record
  | some line => (format.read line).mapError .record
  | none => .error missing

theorem matched_result (format : RecordFormat) (line : String) (queue : List String)
    (unanswered : List Nat) :
    (matched format line queue unanswered).result = (format.read line).mapError .record := by
  unfold matched
  split <;> rename_i h <;> rw [h] <;> rfl

theorem matched_queue (format : RecordFormat) (line : String) (queue : List String)
    (unanswered : List Nat) : (matched format line queue unanswered).queue = queue := by
  unfold matched
  split <;> rfl

theorem consume_queue (format : RecordFormat) (wanted : String) (missing : Failure)
    (unanswered : List Nat) (lines : List String) :
    (consume format wanted missing unanswered lines).queue =
      lines.drop (lines.findIdx (Text.startsWith · wanted) + 1) := by
  induction lines generalizing unanswered with
  | nil => rfl
  | cons line lines ih =>
    rw [consume, List.findIdx_cons]
    cases h : Text.startsWith line wanted with
    | true => exact matched_queue ..
    | false => exact ih _

theorem consume_result (format : RecordFormat) (wanted : String) (missing : Failure)
    (unanswered : List Nat) (lines : List String) :
    (consume format wanted missing unanswered lines).result =
      answer format missing (lines.find? (Text.startsWith · wanted)) := by
  induction lines generalizing unanswered with
  | nil => rfl
  | cons line lines ih =>
    rw [consume, List.find?_cons]
    cases h : Text.startsWith line wanted with
    | true => exact matched_result ..
    | false => exact ih _

/-- The time that a wait takes. -/
def waited (c : Connection) : Duration :=
  (c.debugger.platform.clock (.wait :: c.events)).since c.now

/-! ## Debuggers that have written everything -/

structure Settled (ended : Bool) (c : Connection) : Prop where
  silent : ∀ e events, c.debugger.output (e :: events) = []
  steady : ∀ e events, c.debugger.ended (e :: events) = ended
  outputEnded_eq : c.outputEnded = (ended || c.closed)

theorem settled_start (lines : List String) (ended : Bool) (platform : Platform)
    (format : RecordFormat) (transcript : Transcript) :
    Settled ended (start ((Debugger.fixed lines ended).on platform) format transcript) where
  silent _ _ := rfl
  steady _ _ := rfl
  outputEnded_eq := (Bool.or_false ended).symm

theorem pending_start (lines : List String) (ended : Bool) (platform : Platform)
    (format : RecordFormat) (transcript : Transcript) :
    (start ((Debugger.fixed lines ended).on platform) format transcript).pending = lines := rfl

namespace Settled

variable {ended : Bool} {c : Connection}

/-- An event leaves such a debugger as it was. -/
theorem react (h : Settled ended c) (e : Event) :
    c.react e = { c with events := e :: c.events } := by
  unfold Connection.react
  simp only
  split
  · rfl
  · rename_i hopen
    have hended : c.outputEnded = ended := by
      have heq := h.outputEnded_eq
      cases ended with
      | true => exact heq
      | false => exact Bool.eq_false_iff.mpr hopen
    rw [h.silent, h.steady, List.append_nil, ← hended]

theorem announced (h : Settled ended c) (unanswered : List Nat) (transcript : Transcript) :
    Settled ended { c with unanswered := unanswered, transcript := transcript } :=
  ⟨h.silent, h.steady, h.outputEnded_eq⟩

theorem send (h : Settled ended c) (text : String) : Settled ended (c.send text).2 := by
  cases hclosed : c.closed with
  | true => rwa [send_of_closed hclosed]
  | false =>
    obtain ⟨unanswered, transcript, hsend⟩ := send_of_open hclosed text
    rw [hsend, (h.announced unanswered transcript).react]
    exact ⟨h.silent, h.steady, h.outputEnded_eq⟩

theorem await (h : Settled ended c) (wanted : String) (timeout : Duration) :
    Settled ended (c.await wanted timeout).2 := by
  unfold Connection.await
  simp only [h.react]
  exact ⟨h.silent, h.steady, h.outputEnded_eq⟩

theorem expect (h : Settled ended c) (wanted : String) (timeout : Duration) :
    Settled ended (c.expect wanted timeout).2 := by
  rcases c.expect_cases wanted timeout with heq | heq <;> rw [heq]
  · exact h.await wanted timeout
  · exact h

theorem close (h : Settled ended c) : Settled ended c.close := by
  cases hclosed : c.closed with
  | true => rwa [close_of_closed hclosed]
  | false =>
    rw [close_of_open hclosed, h.react]
    exact ⟨h.silent, h.steady, (Bool.or_true ended).symm⟩

theorem perform (h : Settled ended c) (op : Operation) : Settled ended (c.perform op) := by
  cases op with
  | send text => exact h.send text
  | expect wanted timeout => exact h.expect wanted timeout
  | close => exact h.close

theorem performAll (h : Settled ended c) (ops : List Operation) :
    Settled ended (c.performAll ops) := by
  induction ops generalizing c with
  | nil => exact h
  | cons op ops ih => exact ih (h.perform op)

/-! ## What operations take -/

theorem send_pending (h : Settled ended c) (text : String) :
    (c.send text).2.pending = c.pending := by
  cases hclosed : c.closed with
  | true => rw [send_of_closed hclosed]
  | false =>
    obtain ⟨unanswered, transcript, hsend⟩ := send_of_open hclosed text
    rw [hsend, (h.announced unanswered transcript).react]
    rfl

theorem close_pending (h : Settled ended c) : c.close.pending = c.pending := by
  cases hclosed : c.closed with
  | true => rw [close_of_closed hclosed]
  | false =>
    rw [close_of_open hclosed, h.react]
    show (c.queue ++ c.arriving) ++ [] = c.pending
    rw [List.append_nil]
    rfl

theorem await_pending (h : Settled ended c) (wanted : String) (timeout : Duration) :
    (c.await wanted timeout).2.pending =
      c.pending.drop (c.pending.findIdx (Text.startsWith · wanted) + 1) := by
  unfold Connection.await
  simp only [h.react]
  show (consume ..).queue ++ [] = _
  rw [List.append_nil, consume_queue]
  rfl

theorem await_result (h : Settled ended c) (wanted : String) (timeout : Duration) :
    (c.await wanted timeout).1 =
      answer c.format
        (if ended || c.closed then .outputClosed wanted c.waited else .timedOut wanted timeout)
        (c.pending.find? (Text.startsWith · wanted)) := by
  unfold Connection.await
  simp only [h.react]
  rw [consume_result]
  show answer c.format (c.missing wanted timeout c.waited) _ = _
  rw [Connection.missing, h.outputEnded_eq]
  rfl

end Settled

/-! ## Runs -/

/-- The lines that are gone in `d` while they were there in `c`. -/
def taken (c d : Connection) : List String := c.pending.take (c.pending.length - d.pending.length)

/-- The lines that are taken in a course of operations, one operation after the other. -/
def consumed (c : Connection) : List Operation → List String
  | [] => []
  | op :: ops => c.taken (c.perform op) ++ (c.perform op).consumed ops

theorem taken_of_drop {c d : Connection} {n : Nat} (h : d.pending = c.pending.drop n) :
    c.taken d = c.pending.take n := by
  unfold taken
  rw [h, List.length_drop, List.take_eq_take_iff]
  omega

theorem taken_append_pending {c d : Connection} {n : Nat} (h : d.pending = c.pending.drop n) :
    c.taken d ++ d.pending = c.pending := by
  rw [taken_of_drop h, h, List.take_append_drop]

namespace Settled

variable {ended : Bool} {c : Connection}

theorem perform_pending (h : Settled ended c) (op : Operation) :
    ∃ n, (c.perform op).pending = c.pending.drop n := by
  cases op with
  | send text => exact ⟨0, h.send_pending text⟩
  | expect wanted timeout =>
    show ∃ n, (c.expect wanted timeout).2.pending = c.pending.drop n
    rcases c.expect_cases wanted timeout with heq | heq <;> rw [heq]
    · exact ⟨_, h.await_pending wanted timeout⟩
    · exact ⟨0, rfl⟩
  | close => exact ⟨0, h.close_pending⟩

theorem consumed_append_pending (h : Settled ended c) (ops : List Operation) :
    c.consumed ops ++ (c.performAll ops).pending = c.pending := by
  induction ops generalizing c with
  | nil => rfl
  | cons op ops ih =>
    obtain ⟨n, hpending⟩ := h.perform_pending op
    rw [consumed, performAll_cons, List.append_assoc, ih (h.perform op),
      taken_append_pending hpending]

end Settled

/-- Behind any course of operations, an `expect` with a deadline takes the lines up to the first
that begins as wanted and reads that line; without such a line it takes all and fails for the
reason that nothing more can come, or that nothing more has come in time.  An `expect` without
one comes to nothing at all and changes nothing.  Other operations take nothing, and what was
taken so far is what the output begins with. -/
theorem expect_in_order (lines : List String) (ended : Bool) (platform : Platform)
    (format : RecordFormat) (transcript : Transcript) (ops : List Operation) :
    let fresh := start ((Debugger.fixed lines ended).on platform) format transcript
    let c := fresh.performAll ops
    let now := platform.clock c.events
    fresh.consumed ops ++ c.pending = lines ∧
    (∀ wanted timeout, (now.add timeout).isTellable = true →
      let found := c.pending.findIdx (Text.startsWith · wanted)
      let r := c.expect wanted timeout
      c.taken r.2 = c.pending.take (found + 1) ∧
      r.2.pending = c.pending.drop (found + 1) ∧
      r.1 = some (match c.pending.find? (Text.startsWith · wanted) with
        | some line => (format.read line).mapError .record
        | none =>
          if ended || decide (.close ∈ ops) then
            .error (.outputClosed wanted ((platform.clock (.wait :: c.events)).since now))
          else .error (.timedOut wanted timeout))) ∧
    (∀ wanted timeout, (now.add timeout).isTellable = false → c.expect wanted timeout = (none, c)) ∧
    (∀ text, (c.send text).2.pending = c.pending) ∧
    c.close.pending = c.pending := by
  intro fresh c now
  have hfresh : Settled ended fresh := settled_start lines ended platform format transcript
  have hc : Settled ended c := hfresh.performAll ops
  have hconsumed : fresh.consumed ops ++ c.pending = lines := by
    rw [hfresh.consumed_append_pending ops]
    exact pending_start lines ended platform format transcript
  obtain ⟨hdebugger, hformat⟩ := fresh.setting_performAll ops
  have hplatform : c.debugger.platform = platform := congrArg Debugger.platform hdebugger
  have hdeadline : ∀ timeout, c.hasDeadline timeout = (now.add timeout).isTellable := by
    intro timeout
    rw [hasDeadline, Connection.now, hplatform]
  refine ⟨hconsumed, fun wanted timeout htime => ?_, fun wanted timeout htime => ?_,
    hc.send_pending, hc.close_pending⟩
  · rw [expect_of_deadline ((hdeadline timeout).trans htime)]
    refine ⟨taken_of_drop (hc.await_pending wanted timeout), hc.await_pending wanted timeout,
      congrArg some ?_⟩
    have hclosed : c.closed = decide (.close ∈ ops) := closed_performAll fresh ops
    rw [hc.await_result, show c.format = format from hformat, hclosed, waited, Connection.now,
      hplatform]
    cases c.pending.find? (Text.startsWith · wanted) with
    | some line => rfl
    | none => exact apply_ite Except.error ..
  · exact expect_of_not_deadline ((hdeadline timeout).trans htime) wanted

/-- The longest timeout that a script can give, as a number of seconds.  Its line is there, and is
neither taken nor read. -/
theorem expect_breaks_down :
    let c := start ((Debugger.fixed ["1^done"] true).on .plain) .mi .empty
    let timeout := Duration.ofSeconds 9223372036854775807
    Text.startsWith "1^done" "1^" = true ∧
      (c.expect "1^" timeout).1 = none ∧ c.taken (c.expect "1^" timeout).2 = [] ∧
      (c.expect "1^" timeout).2.pending = ["1^done"] ∧
      (c.expect "1^" (.ofSeconds 1)).2.pending = [] := by
  decide +kernel

end Connection
end CheckScript
