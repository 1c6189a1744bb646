/-
Closing is final.

A connection that was closed has everything that the debugger will ever write in its queue
(`Shut`), and no operation changes this (`Shut.perform`).  So only `expect` does anything
then, and it cannot tell the connection from one whose output held the lines that are left
and ended behind them, where the clock goes on alike (`close_final`).
-/
import CheckScript.Proofs.Connection.Consumption

namespace CheckScript
namespace Connection

/-! ## Ended output -/

/-- What waiting does where nothing more can come. -/
def consumeEnded (c : Connection) (wanted : String) : Consumed :=
  consume c.format wanted (.outputClosed wanted c.waited) c.unanswered c.pending

theorem react_of_ended {c : Connection} (h : c.outputEnded = true) (e : Event) :
    c.react e = { c with events := e :: c.events } := by
  unfold react
  simp only
  rw [if_pos h]

theorem await_of_ended {c : Connection} (h : c.outputEnded = true) (wanted : String)
    (timeout : Duration) :
    c.await wanted timeout = ((c.consumeEnded wanted).result,
      { c.collect with
        events := .wait :: c.events
        queue := (c.consumeEnded wanted).queue
        unanswered := (c.consumeEnded wanted).unanswered }) := by
  have hmissing : ∀ elapsed, (c.react .wait).collect.missing wanted timeout elapsed =
      .outputClosed wanted elapsed := by
    intro elapsed
    rw [react_of_ended h]
    exact if_pos h
  unfold await
  simp only
  rw [hmissing, react_of_ended h]
  rfl

theorem outputEnded_expect {c : Connection} (h : c.outputEnded = true) (wanted : String)
    (timeout : Duration) : (c.expect wanted timeout).2.outputEnded = true := by
  rcases c.expect_cases wanted timeout with heq | heq <;> rw [heq]
  · rw [await_of_ended h]
    exact h
  · exact h

/-- The same is left for an `expect` on the one connection and on the other, and from now on their
clocks go alike. -/
structure Alike (c d : Connection) : Prop where
  format : c.format = d.format
  pending : c.pending = d.pending
  unanswered : c.unanswered = d.unanswered
  clock : ∀ more, c.debugger.platform.clock (more ++ c.events) =
    d.debugger.platform.clock (more ++ d.events)

theorem Alike.hasDeadline {c d : Connection} (h : Alike c d) (timeout : Duration) :
    c.hasDeadline timeout = d.hasDeadline timeout := by
  have hnow : c.now = d.now := h.clock []
  rw [Connection.hasDeadline, Connection.hasDeadline, hnow]

theorem Alike.await {c d : Connection} (h : Alike c d) (hc : c.outputEnded = true)
    (hd : d.outputEnded = true) (wanted : String) (timeout : Duration) :
    (c.await wanted timeout).1 = (d.await wanted timeout).1 ∧
      Alike (c.await wanted timeout).2 (d.await wanted timeout).2 := by
  have hwaited : c.waited = d.waited := by
    have hnow : c.now = d.now := h.clock []
    rw [waited, waited, hnow]
    exact congrArg (Duration.since · d.now) (h.clock [.wait])
  have hconsumed : c.consumeEnded wanted = d.consumeEnded wanted := by
    rw [consumeEnded, consumeEnded, h.format, h.pending, h.unanswered, hwaited]
  rw [await_of_ended hc, await_of_ended hd, hconsumed]
  refine ⟨rfl, h.format, rfl, rfl, fun more => ?_⟩
  have hclock := h.clock (more ++ [.wait])
  rwa [List.append_assoc, List.append_assoc] at hclock

theorem Alike.expect {c d : Connection} (h : Alike c d) (hc : c.outputEnded = true)
    (hd : d.outputEnded = true) (wanted : String) (timeout : Duration) :
    (c.expect wanted timeout).1 = (d.expect wanted timeout).1 ∧
      Alike (c.expect wanted timeout).2 (d.expect wanted timeout).2 := by
  cases htime : c.hasDeadline timeout with
  | true =>
    obtain ⟨hresult, halike⟩ := h.await hc hd wanted timeout
    rw [expect_of_deadline htime, expect_of_deadline ((h.hasDeadline timeout).symm.trans htime)]
    exact ⟨congrArg some hresult, halike⟩
  | false =>
    rw [expect_of_not_deadline htime,
      expect_of_not_deadline ((h.hasDeadline timeout).symm.trans htime)]
    exact ⟨rfl, h⟩

/-! ## Closed connections -/

def Operation.isExpect : Operation → Bool
  | .expect .. => true
  | .send _ | .close => false

/-- On a closed connection only `expect` does anything. -/
theorem perform_of_closed {c : Connection} (h : c.closed = true) {op : Operation}
    (hop : op.isExpect = false) : c.perform op = c := by
  cases op with
  | send text => exact congrArg Prod.snd (send_of_closed h text)
  | expect => cases hop
  | close => exact close_of_closed h

/-- The connection is closed, and all that the debugger has written is in the queue. -/
structure Shut (c : Connection) : Prop where
  closed : c.closed = true
  outputEnded : c.outputEnded = true
  arrived : c.arriving = []

namespace Shut

variable {c : Connection}

/-- All lines have been in the transcript since the connection was closed. -/
theorem collect (h : Shut c) : c.collect = c := by
  have harrived := h.arrived
  cases c
  obtain rfl := harrived
  simp [Connection.collect]

theorem perform (h : Shut c) (op : Operation) :
    Shut (c.perform op) ∧ (c.perform op).transcript = c.transcript := by
  cases op with
  | send | close =>
    rw [perform_of_closed h.closed rfl]
    exact ⟨h, rfl⟩
  | expect wanted timeout =>
    show Shut (c.expect wanted timeout).2 ∧ (c.expect wanted timeout).2.transcript = _
    rcases c.expect_cases wanted timeout with heq | heq <;> rw [heq]
    · rw [await_of_ended h.outputEnded, h.collect]
      exact ⟨⟨h.closed, h.outputEnded, h.arrived⟩, rfl⟩
    · exact ⟨h, rfl⟩

theorem performAll (h : Shut c) (ops : List Operation) :
    Shut (c.performAll ops) ∧ (c.performAll ops).transcript = c.transcript := by
  induction ops generalizing c with
  | nil => exact ⟨h, rfl⟩
  | cons op ops ih =>
    obtain ⟨hshut, htranscript⟩ := h.perform op
    obtain ⟨hshuts, htranscripts⟩ := ih hshut
    exact ⟨hshuts, htranscripts.trans htranscript⟩

end Shut

/-- `close` closes a connection for good, unless it was closed in another way. -/
theorem shut_close {c : Connection} (h : c.closed = true → Shut c) : Shut c.close := by
  cases hclosed : c.closed with
  | true =>
    rw [close_of_closed hclosed]
    exact h hclosed
  | false =>
    rw [close_of_open hclosed]
    exact ⟨rfl, rfl, rfl⟩

/-- Closing loses neither lines nor tokens. -/
theorem close_keeps {c : Connection} (h : c.closed = true → Shut c) :
    c.close.pending = (c.react .inputEnd).pending ∧ c.close.unanswered = c.unanswered := by
  cases hclosed : c.closed with
  | true =>
    rw [close_of_closed hclosed, react_of_ended (h hclosed).outputEnded]
    exact ⟨rfl, rfl⟩
  | false =>
    obtain ⟨_, _, hreact⟩ := c.react_eq .inputEnd
    rw [close_of_open hclosed, hreact]
    exact ⟨List.append_nil _, rfl⟩

/-- Nothing but `close` closes a connection. -/
theorem shut_perform {c : Connection} (h : c.closed = true → Shut c) (op : Operation)
    (hclosed : (c.perform op).closed = true) : Shut (c.perform op) := by
  rw [closed_perform, Bool.or_eq_true, decide_eq_true_eq] at hclosed
  rcases hclosed with hclosed | rfl
  · exact ((h hclosed).perform op).1
  · exact shut_close h

theorem shut_performAll {c : Connection} (h : c.closed = true → Shut c) (ops : List Operation) :
    (c.performAll ops).closed = true → Shut (c.performAll ops) := by
  induction ops generalizing c with
  | nil => exact h
  | cons op ops ih => exact ih (shut_perform h op)

/-! ## The course of operations on a closed connection -/

/-- A machine that goes on where the one of `c` stands. -/
def laterPlatform (c : Connection) : Platform where
  refusal later := c.debugger.platform.refusal (later ++ c.events)
  clock later := c.debugger.platform.clock (later ++ c.events)

/-- A connection whose output holds what is left in `c`, and has ended. -/
def remainder (c : Connection) : Connection :=
  { start ((Debugger.fixed c.pending true).on c.laterPlatform) c.format .empty with
    unanswered := c.unanswered }

theorem alike_remainder (c : Connection) : Alike c c.remainder := by
  refine ⟨rfl, rfl, rfl, fun more => ?_⟩
  show _ = c.debugger.platform.clock ((more ++ []) ++ c.events)
  rw [List.append_nil]

theorem Shut.alike_performAll {c d : Connection} (hc : Shut c) (hd : d.outputEnded = true)
    (h : Alike c d) (ops : List Operation) :
    let rest := d.performAll (ops.filter Operation.isExpect)
    rest.outputEnded = true ∧ Alike (c.performAll ops) rest := by
  induction ops generalizing c d with
  | nil => exact ⟨hd, h⟩
  | cons op ops ih =>
    obtain ⟨hshut, -⟩ := hc.perform op
    cases op with
    | send | close =>
      rw [performAll_cons, perform_of_closed hc.closed rfl]
      exact ih hc hd h
    | expect wanted timeout =>
      obtain ⟨-, halike⟩ := h.expect hc.outputEnded hd wanted timeout
      exact ih hshut (outputEnded_expect hd wanted timeout) halike

/-- Closing keeps the lines that nobody has consumed, and those that the debugger writes at
the end of its input.  Whatever happens afterwards, the connection stays closed; sending is
refused and closing again does nothing, each without any change; the transcript stays as it
was; and each `expect` has the result, and leaves the lines and the unanswered tokens, that
it has and leaves where the output has ended behind the lines that were kept. -/
theorem close_final (debugger : Debugger) (format : RecordFormat) (transcript : Transcript)
    (before after : List Operation) :
    let unshut := (start debugger format transcript).performAll before
    let shut := unshut.close
    let c := shut.performAll after
    let ended := shut.remainder.performAll (after.filter Operation.isExpect)
    shut.pending = (unshut.react .inputEnd).pending ∧ shut.unanswered = unshut.unanswered ∧
    c.closed = true ∧
    (∀ text, c.send text = (.error .inputClosed, c)) ∧
    c.close = c ∧
    c.transcript = shut.transcript ∧
    c.pending = ended.pending ∧ c.unanswered = ended.unanswered ∧
    ∀ wanted timeout,
      let r := c.expect wanted timeout
      let s := ended.expect wanted timeout
      r.1 = s.1 ∧ r.2.pending = s.2.pending ∧ r.2.unanswered = s.2.unanswered := by
  intro unshut shut c ended
  have hopen : (start debugger format transcript).closed = true →
      Shut (start debugger format transcript) := fun h => nomatch h
  have hbefore : unshut.closed = true → Shut unshut := shut_performAll hopen before
  have hshut : Shut shut := shut_close hbefore
  obtain ⟨hpending, hunanswered⟩ := close_keeps hbefore
  obtain ⟨hc, htranscript⟩ := hshut.performAll after
  obtain ⟨hended, halike⟩ := hshut.alike_performAll rfl shut.alike_remainder after
  refine ⟨hpending, hunanswered, hc.closed, send_of_closed hc.closed, close_of_closed hc.closed, htranscript,
    halike.pending, halike.unanswered, fun wanted timeout => ?_⟩
  obtain ⟨hresult, hleft⟩ := halike.expect hc.outputEnded hended wanted timeout
  exact ⟨hresult, hleft.pending, hleft.unanswered⟩

end Connection
end CheckScript
