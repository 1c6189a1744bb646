/-
Lines that nobody waits for.

An `expect` passes over lines that begin otherwise than it wants, and such a line changes no
more than the token that it answers.  So two connections that differ by lines which no
`expect` wants and which answer no token (`Noisier`) answer every operation alike, and differ
by such lines only, afterwards, too (`Noisier.send`, `Noisier.expect`).
-/
import CheckScript.Proofs.Connection.History

namespace CheckScript
namespace Connection

/-- `noisy` is `lines` with noise between them, in as many places as one likes. -/
inductive Inserted (noise : String → Prop) : List String → List String → Prop where
  | nil : Inserted noise [] []
  | keep (line : String) {lines noisy : List String} (h : Inserted noise lines noisy) :
    Inserted noise (line :: lines) (line :: noisy)
  | insert {line : String} (hline : noise line) {lines noisy : List String}
    (h : Inserted noise lines noisy) : Inserted noise lines (line :: noisy)

variable {noise : String → Prop} {ended : Bool} {c d : Connection}

/-- Noise that is not wanted and answers no token is passed over without a trace. -/
theorem Inserted.consume {lines noisy : List String} {wanted : String}
    (h : Inserted noise lines noisy)
    (hanswer : ∀ line, noise line → tokenOfAnswer line = none)
    (hother : ∀ line, noise line → Text.startsWith line wanted = false) (format : RecordFormat)
    (missing : Failure) (unanswered : List Nat) :
    let r := Connection.consume format wanted missing unanswered lines
    let q := Connection.consume format wanted missing unanswered noisy
    q.result = r.result ∧ q.unanswered = r.unanswered ∧ Inserted noise r.queue q.queue := by
  intro r q
  subst r q
  induction h generalizing unanswered with
  | nil => exact ⟨rfl, rfl, .nil⟩
  | @keep line lines noisy hrest ih =>
    simp only [Connection.consume]
    split
    · rw [matched_result, matched_result, matched_behind _ _ lines noisy, matched_queue]
      exact ⟨rfl, rfl, hrest⟩
    · exact ih _
  | @insert line hline lines noisy hrest ih =>
    have hpassed : Connection.consume format wanted missing unanswered (line :: noisy) =
        Connection.consume format wanted missing unanswered noisy := by
      rw [Connection.consume, hanswer line hline,
        if_neg (by rw [hother line hline]; exact Bool.false_ne_true)]
      rfl
    rw [hpassed]
    exact ih unanswered

/-- `d` is `c` with noise among the lines that are still to be consumed. -/
structure Noisier (noise : String → Prop) (ended : Bool) (c d : Connection) : Prop where
  settled : Settled ended c
  settled' : Settled ended d
  platform : d.debugger.platform = c.debugger.platform
  events : d.events = c.events
  format : d.format = c.format
  closed : d.closed = c.closed
  unanswered : d.unanswered = c.unanswered
  own : d.transcript.own = c.transcript.own
  pending : Inserted noise c.pending d.pending

theorem noisier_start {lines noisy : List String} (h : Inserted noise lines noisy) (ended : Bool)
    (platform : Platform) (format : RecordFormat) (transcript : Transcript) :
    Noisier noise ended (start ((Debugger.fixed lines ended).on platform) format transcript)
      (start ((Debugger.fixed noisy ended).on platform) format transcript) where
  settled := settled_start lines ended platform format transcript
  settled' := settled_start noisy ended platform format transcript
  platform := rfl
  events := rfl
  format := rfl
  closed := rfl
  unanswered := rfl
  own := rfl
  pending := h

namespace Noisier

theorem note (h : Noisier noise ended c d) (text : String) :
    Noisier noise ended (c.note text) (d.note text) := by
  refine ⟨⟨h.settled.silent, h.settled.steady, h.settled.outputEnded_eq⟩,
    ⟨h.settled'.silent, h.settled'.steady, h.settled'.outputEnded_eq⟩, h.platform, h.events,
    h.format, h.closed, h.unanswered, ?_, h.pending⟩
  rw [own_note, own_note, h.own]

/-- What no operation changes stays the same on both. -/
theorem setting (h : Noisier noise ended c d) (op : Operation) :
    (d.perform op).debugger.platform = (c.perform op).debugger.platform ∧
      (d.perform op).format = (c.perform op).format ∧
      (d.perform op).closed = (c.perform op).closed := by
  obtain ⟨hdebugger, hformat⟩ := c.setting_perform op
  obtain ⟨hdebugger', hformat'⟩ := d.setting_perform op
  rw [hdebugger, hdebugger', hformat, hformat', closed_perform, closed_perform, h.closed]
  exact ⟨h.platform, h.format, rfl⟩

theorem write (h : Noisier noise ended c d) (text : String) : d.write text = c.write text := by
  rw [Connection.write, Connection.write, h.platform, h.events]

theorem send (h : Noisier noise ended c d) (text : String) :
    (d.send text).1 = (c.send text).1 ∧
      Noisier noise ended (c.send text).2 (d.send text).2 := by
  have hc := through_send c text
  have hd := through_send d text
  have hdeeds : d.deeds (.send text) = c.deeds (.send text) := by
    rw [deeds, deeds, h.closed, attempt, attempt, h.platform, h.events]
  have hsent : (d.send text).1 = (c.send text).1 ∧
      (d.send text).2.events = (c.send text).2.events := by
    cases hclosed : c.closed with
    | true =>
      rw [send_of_closed hclosed, send_of_closed (h.closed.trans hclosed)]
      exact ⟨rfl, h.events⟩
    | false =>
      obtain ⟨_, _, hcsend⟩ := send_of_open hclosed text
      obtain ⟨_, _, hdsend⟩ := send_of_open (h.closed.trans hclosed) text
      rw [hcsend, hdsend, (frame_react _ _).2.2.2, (frame_react _ _).2.2.2, h.write, h.events]
      exact ⟨rfl, rfl⟩
  obtain ⟨hplatform, hformat, hclosed⟩ := h.setting (.send text)
  rw [hdeeds] at hd
  refine ⟨hsent.1, h.settled.send text, h.settled'.send text, hplatform, hsent.2, hformat, hclosed,
    ?_, ?_, ?_⟩
  · rw [hd.unanswered, hc.unanswered, h.format, h.unanswered]
  · rw [hd.own, hc.own, h.own, h.format, h.unanswered]
  · rw [h.settled.send_pending, h.settled'.send_pending]
    exact h.pending

theorem hasDeadline (h : Noisier noise ended c d) (timeout : Duration) :
    d.hasDeadline timeout = c.hasDeadline timeout := by
  rw [Connection.hasDeadline, Connection.hasDeadline, now, now, h.platform, h.events]

/-- An `expect` that wants no noise finds the same line. -/
theorem expect {wanted : String} (h : Noisier noise ended c d)
    (hanswer : ∀ line, noise line → tokenOfAnswer line = none)
    (hother : ∀ line, noise line → Text.startsWith line wanted = false) (timeout : Duration) :
    (d.expect wanted timeout).1 = (c.expect wanted timeout).1 ∧
      Noisier noise ended (c.expect wanted timeout).2 (d.expect wanted timeout).2 := by
  cases htime : c.hasDeadline timeout with
  | false =>
    rw [expect_of_not_deadline htime, expect_of_not_deadline ((h.hasDeadline timeout).trans htime)]
    exact ⟨rfl, h⟩
  | true =>
    obtain ⟨hresult, hunanswered, hpending, hown⟩ := h.settled.await_eq wanted timeout
    obtain ⟨hresult', hunanswered', hpending', hown'⟩ := h.settled'.await_eq wanted timeout
    have hmissing : d.missing wanted timeout d.waited = c.missing wanted timeout c.waited := by
      rw [missing, missing, h.settled.outputEnded_eq, h.settled'.outputEnded_eq, h.closed, waited,
        waited, now, now, h.platform, h.events]
    obtain ⟨hsame, htokens, hrest⟩ := h.pending.consume hanswer hother c.format
      (c.missing wanted timeout c.waited) c.unanswered
    rw [h.format, hmissing, h.unanswered] at hresult' hunanswered' hpending'
    have hevents : (d.await wanted timeout).2.events = (c.await wanted timeout).2.events := by
      show (d.react .wait).events = (c.react .wait).events
      rw [(frame_react _ _).2.2.2, (frame_react _ _).2.2.2, h.events]
    obtain ⟨hplatform, hformat, hclosed⟩ := h.setting (.expect wanted timeout)
    rw [perform, perform, expect_of_deadline htime,
      expect_of_deadline ((h.hasDeadline timeout).trans htime)] at hplatform hformat hclosed
    rw [expect_of_deadline htime, expect_of_deadline ((h.hasDeadline timeout).trans htime)]
    refine ⟨congrArg some ?_, h.settled.await wanted timeout, h.settled'.await wanted timeout,
      hplatform, hevents, hformat, hclosed, ?_, ?_, ?_⟩
    · rw [hresult', hresult, hsame]
    · rw [hunanswered', hunanswered, htokens]
    · rw [hown', hown, h.own]
    · rw [hpending, hpending']
      exact hrest

end Noisier
end Connection
end CheckScript
