/-
Courses of operations on a connection, and what no operation changes.

A transcript has two halves: the lines that came from the debugger, and what the side of the script
wrote between them.
-/
import CheckScript.Connection

namespace CheckScript

/-! ## The halves of a transcript -/

/-- The line of an entry about a line that was received. -/
def Entry.received? : Entry → Option String
  | .received text => some text
  | _ => none

namespace Transcript

/-- The lines that were received. -/
def received (t : Transcript) : List String := t.entries.toList.filterMap Entry.received?

/-- The entries about anything else than a line that was received. -/
def own (t : Transcript) : List Entry := t.entries.toList.filter (·.received?.isNone)

theorem toList_push (t : Transcript) (e : Entry) :
    (t.push e).entries.toList = t.entries.toList ++ [e] :=
  Array.toList_push

theorem received_push (t : Transcript) (e : Entry) :
    (t.push e).received = t.received ++ e.received?.toList := by
  unfold received
  rw [toList_push, List.filterMap_append]
  cases e <;> rfl

theorem own_push_received (t : Transcript) (line : String) :
    (t.push (.received line)).own = t.own := by
  unfold own
  rw [toList_push, List.filter_append]
  exact List.append_nil _

/-- Entries of one side are all that is added on that side. -/
theorem own_append {t u : Transcript} {es : List Entry}
    (h : u.entries.toList = t.entries.toList ++ es) (hes : ∀ e ∈ es, e.received? = none) :
    u.own = t.own ++ es ∧ u.received = t.received := by
  unfold own received
  rw [h, List.filter_append, List.filterMap_append, List.filterMap_eq_nil_iff.mpr hes,
    List.append_nil]
  exact ⟨congrArg _ (List.filter_eq_self.mpr fun e he => by rw [hes e he]; rfl), rfl⟩

theorem own_push (t : Transcript) {e : Entry} (h : e.received? = none) :
    (t.push e).own = t.own ++ [e] :=
  (own_append (t.toList_push e) fun _ he => List.mem_singleton.mp he ▸ h).1

/-- Lines that come one after the other. -/
theorem received_foldl_push (t : Transcript) (lines : List String) :
    (lines.foldl (fun t line => t.push (.received line)) t).received = t.received ++ lines := by
  induction lines generalizing t with
  | nil => exact (List.append_nil _).symm
  | cons line lines ih =>
    rw [List.foldl_cons, ih, received_push]
    exact List.append_assoc _ [line] lines

theorem own_foldl_push (t : Transcript) (lines : List String) :
    (lines.foldl (fun t line => t.push (.received line)) t).own = t.own := by
  induction lines generalizing t with
  | nil => rfl
  | cons line lines ih => rw [List.foldl_cons, ih, own_push_received]

end Transcript

namespace Connection

theorem received_collect (c : Connection) :
    c.collect.transcript.received = c.transcript.received ++ c.arriving :=
  Transcript.received_foldl_push _ _

theorem own_collect (c : Connection) : c.collect.transcript.own = c.transcript.own :=
  Transcript.own_foldl_push _ _

theorem own_note (c : Connection) (text : String) :
    (c.note text).transcript.own = c.transcript.own ++ [.note text] :=
  c.transcript.own_push rfl

/-! ## Courses of operations -/

inductive Operation where
  | send (text : String)
  | expect (wanted : String) (timeout : Duration)
  | close
deriving DecidableEq, Repr

def perform (c : Connection) : Operation → Connection
  | .send text => (c.send text).2
  | .expect wanted timeout => (c.expect wanted timeout).2
  | .close => c.close

def performAll (c : Connection) (ops : List Operation) : Connection := ops.foldl perform c

theorem performAll_nil (c : Connection) : c.performAll [] = c := rfl

theorem performAll_cons (c : Connection) (op : Operation) (ops : List Operation) :
    c.performAll (op :: ops) = (c.perform op).performAll ops := rfl

/-- The lines that the debugger has written and nobody has consumed. -/
def pending (c : Connection) : List String := c.queue ++ c.arriving

/-! ## Operations before and after the end of the input -/

theorem launch_eq (c : Connection) (token : Option Nat) :
    ∃ unanswered transcript,
      c.launch token = { c with unanswered := unanswered, transcript := transcript } := by
  unfold launch
  split
  · exact ⟨c.unanswered, c.transcript, rfl⟩
  · split
    · exact ⟨c.unanswered, _, rfl⟩
    · exact ⟨_, c.transcript, rfl⟩

theorem send_of_closed {c : Connection} (h : c.closed = true) (text : String) :
    c.send text = (.error .inputClosed, c) := by
  rw [send, if_pos h]

/-- A text reaches the debugger, or it is lost by a fault of the machine. -/
theorem write_cases (c : Connection) (text : String) :
    c.debugger.platform.refusal c.events text = none ∧ c.write text = (.ok (), .input text) ∨
      ∃ fault, c.debugger.platform.refusal c.events text = some fault ∧
        c.write text = (.error (.system fault), .lost text) := by
  unfold write
  cases h : c.debugger.platform.refusal c.events text with
  | none => exact .inl ⟨rfl, rfl⟩
  | some fault => exact .inr ⟨fault, rfl, rfl⟩

theorem send_of_open {c : Connection} (h : c.closed = false) (text : String) :
    ∃ unanswered transcript, c.send text = ((c.write text).1,
      react { c with unanswered := unanswered, transcript := transcript } (c.write text).2) := by
  obtain ⟨unanswered, transcript, hlaunch⟩ := c.launch_eq (tokenOfCommand text)
  refine ⟨unanswered, transcript.push (.sent text), ?_⟩
  rw [send, if_neg (by rw [h]; exact Bool.false_ne_true), hlaunch]
  rfl

theorem expect_of_deadline {c : Connection} {timeout : Duration}
    (h : c.hasDeadline timeout = true) (wanted : String) :
    c.expect wanted timeout = (some (c.await wanted timeout).1, (c.await wanted timeout).2) := by
  rw [expect, if_pos h]

/-- Without a deadline nothing is looked at. -/
theorem expect_of_not_deadline {c : Connection} {timeout : Duration}
    (h : c.hasDeadline timeout = false) (wanted : String) : c.expect wanted timeout = (none, c) := by
  rw [expect, if_neg (by rw [h]; exact Bool.false_ne_true)]

/-- An `expect` changes a connection as waiting does, or not at all. -/
theorem expect_cases (c : Connection) (wanted : String) (timeout : Duration) :
    (c.expect wanted timeout).2 = (c.await wanted timeout).2 ∨ (c.expect wanted timeout).2 = c := by
  cases h : c.hasDeadline timeout with
  | true => exact .inl (congrArg Prod.snd (expect_of_deadline h wanted))
  | false => exact .inr (congrArg Prod.snd (expect_of_not_deadline h wanted))

theorem close_of_closed {c : Connection} (h : c.closed = true) : c.close = c := by
  rw [close, if_pos h]

theorem close_of_open {c : Connection} (h : c.closed = false) :
    c.close = { (c.react .inputEnd).collect with closed := true, outputEnded := true } := by
  rw [close, if_neg (by rw [h]; exact Bool.false_ne_true)]

/-! ## Formats and ends -/

/-- An event reaches the debugger, and may change what it has written. -/
theorem react_eq (c : Connection) (e : Event) :
    ∃ arriving ended, c.react e =
      { c with events := e :: c.events, arriving := arriving, outputEnded := ended } := by
  unfold react
  simp only
  split
  · exact ⟨c.arriving, c.outputEnded, rfl⟩
  · exact ⟨_, _, rfl⟩

/-- The debugger and the format are what they were at the start. -/
theorem setting_react (c : Connection) (e : Event) :
    (c.react e).debugger = c.debugger ∧ (c.react e).format = c.format := by
  obtain ⟨_, _, h⟩ := c.react_eq e
  rw [h]
  exact ⟨rfl, rfl⟩

theorem closed_react (c : Connection) (e : Event) : (c.react e).closed = c.closed := by
  obtain ⟨_, _, h⟩ := c.react_eq e
  rw [h]

theorem setting_perform (c : Connection) (op : Operation) :
    (c.perform op).debugger = c.debugger ∧ (c.perform op).format = c.format := by
  cases op with
  | send text =>
    show (c.send text).2.debugger = _ ∧ (c.send text).2.format = _
    cases h : c.closed with
    | true => rw [send_of_closed h]; exact ⟨rfl, rfl⟩
    | false =>
      obtain ⟨unanswered, transcript, hsend⟩ := send_of_open h text
      rw [hsend]
      exact setting_react { c with unanswered := unanswered, transcript := transcript } _
  | expect wanted timeout =>
    show (c.expect wanted timeout).2.debugger = _ ∧ (c.expect wanted timeout).2.format = _
    rcases c.expect_cases wanted timeout with h | h <;> rw [h]
    · exact setting_react c .wait
    · exact ⟨rfl, rfl⟩
  | close =>
    show c.close.debugger = _ ∧ c.close.format = _
    cases h : c.closed with
    | true => rw [close_of_closed h]; exact ⟨rfl, rfl⟩
    | false =>
      rw [close_of_open h]
      exact setting_react c .inputEnd

/-- A connection is closed by `close` and stays closed. -/
theorem closed_perform (c : Connection) (op : Operation) :
    (c.perform op).closed = (c.closed || decide (op = .close)) := by
  cases op with
  | send text =>
    rw [decide_eq_false (fun h => nomatch h), Bool.or_false]
    show (c.send text).2.closed = c.closed
    cases h : c.closed with
    | true => rw [send_of_closed h, h]
    | false =>
      obtain ⟨_, _, hsend⟩ := send_of_open h text
      rw [hsend, closed_react]
      exact h
  | expect wanted timeout =>
    rw [decide_eq_false (fun h => nomatch h), Bool.or_false]
    show (c.expect wanted timeout).2.closed = c.closed
    rcases c.expect_cases wanted timeout with h | h <;> rw [h]
    exact closed_react c .wait
  | close =>
    rw [decide_eq_true rfl, Bool.or_true]
    show c.close.closed = true
    cases h : c.closed with
    | true => rw [close_of_closed h, h]
    | false => rw [close_of_open h]

theorem setting_performAll (c : Connection) (ops : List Operation) :
    (c.performAll ops).debugger = c.debugger ∧ (c.performAll ops).format = c.format := by
  induction ops generalizing c with
  | nil => exact ⟨rfl, rfl⟩
  | cons op ops ih =>
    obtain ⟨hdebugger, hformat⟩ := c.setting_perform op
    rw [performAll_cons, (ih _).1, (ih _).2]
    exact ⟨hdebugger, hformat⟩

theorem closed_performAll (c : Connection) (ops : List Operation) :
    (c.performAll ops).closed = (c.closed || decide (.close ∈ ops)) := by
  induction ops generalizing c with
  | nil => simp [performAll_nil]
  | cons op ops ih =>
    rw [performAll_cons, ih, closed_perform, Bool.or_assoc]
    congr 1
    rw [← Bool.decide_or]
    exact decide_eq_decide.mpr (by rw [List.mem_cons, eq_comm])

end Connection
end CheckScript
