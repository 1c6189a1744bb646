/-
The lines that a debugger reads.

A command reaches the debugger as its text and a newline behind it.  The debugger cuts its
input at newlines, so it reads a text that has newlines of its own as several lines, while the
connection looks for a token in front of the whole text only.  `accounted_iff` says that this is
all that can come between the commands of a connection and the lines of its debugger.
-/
import CheckScript.Proofs.Connection.Unanswered
import CheckScript.Proofs.Text.Lines

namespace CheckScript
namespace Connection

/-! ## The input as lines -/

/-- The lines on the input of the debugger: what has been written to it, cut at newlines.  Behind
the last newline no line has begun. -/
def commandLines (events : List Event) : List String :=
  ((Text.cut '\n' (Debugger.inputOf events).toList).dropLast).map String.ofList

/-- The lines of a text and of the newline that is written behind it. -/
def linesOfCommand (text : String) : List String := (Text.cut '\n' text.toList).map String.ofList

theorem inputOf_eq (events : List Event) :
    (Debugger.inputOf events).toList =
      (inputs events).flatMap fun text => text.toList ++ ['\n'] := by
  induction events with
  | nil => rfl
  | cons e events ih =>
    rw [inputs_cons, List.flatMap_append, ← ih]
    cases e with
    | input text =>
      show (Debugger.inputOf events ++ text ++ "\n").toList =
        (Debugger.inputOf events).toList ++ (text.toList ++ ['\n'] ++ [])
      rw [String.toList_append, String.toList_append, List.append_nil]
      exact List.append_assoc ..
    | lost _ | wait | inputEnd => exact (List.append_nil _).symm

/-- Only a command that succeeds puts anything on the input. -/
theorem inputOf_send (c : Connection) (text : String) :
    Debugger.inputOf (c.send text).2.events =
      if (c.send text).1.isOk then Debugger.inputOf c.events ++ text ++ "\n"
      else Debugger.inputOf c.events := by
  cases h : c.closed with
  | true =>
    rw [send_of_closed h]
    rfl
  | false =>
    obtain ⟨unanswered, entries, hsend⟩ := send_of_open h text
    rw [hsend, (frame_react _ _).2.2.2]
    rcases c.write_cases text with ⟨-, hwrite⟩ | ⟨fault, -, hwrite⟩ <;> rw [hwrite] <;> rfl

/-- Every text ends with a newline, which opens no line. -/
theorem cut_written (texts : List String) :
    Text.cut '\n' (texts.flatMap fun text => text.toList ++ ['\n']) =
      texts.flatMap (fun text => Text.cut '\n' text.toList) ++ [[]] := by
  induction texts with
  | nil => rfl
  | cons text texts ih =>
    rw [List.flatMap_cons, List.flatMap_cons, List.append_assoc, List.singleton_append,
      Text.cut_append_cons, ih, List.append_assoc]

/-- The debugger reads the lines of the texts that reached it, and no others. -/
theorem commandLines_eq (events : List Event) :
    commandLines events = (inputs events).flatMap linesOfCommand := by
  rw [commandLines, inputOf_eq, cut_written, List.dropLast_concat, List.map_flatMap]
  rfl

theorem linesOfCommand_of_not_mem {text : String} (h : '\n' ∉ text.toList) :
    linesOfCommand text = [text] := by
  rw [linesOfCommand, Text.cut_of_not_mem h]
  exact congrArg (fun text => [text]) String.ofList_toList

theorem newline_not_mem_line {text line : String} (h : line ∈ linesOfCommand text) :
    '\n' ∉ line.toList := by
  obtain ⟨piece, hpiece, rfl⟩ := List.mem_map.mp h
  rw [String.toList_ofList]
  exact Text.not_mem_of_mem_cut hpiece

/-- Texts are read as they are exactly if none of them has a newline, as no line has. -/
theorem flatMap_linesOfCommand {texts : List String} :
    texts.flatMap linesOfCommand = texts ↔ ∀ text ∈ texts, '\n' ∉ text.toList := by
  constructor
  · intro h text htext
    rw [← h] at htext
    obtain ⟨whole, -, hline⟩ := List.mem_flatMap.mp htext
    exact newline_not_mem_line hline
  · intro h
    induction texts with
    | nil => rfl
    | cons text texts ih =>
      obtain ⟨htext, htexts⟩ := List.forall_mem_cons.mp h
      rw [List.flatMap_cons, linesOfCommand_of_not_mem htext, ih htexts]
      rfl

/-! ## Commands and lines -/

/-- A history as the debugger knows it: each line that it reads is a command. -/
def asRead (history : List Deed) : List Deed :=
  history.flatMap fun
    | .sent text => (linesOfCommand text).map .sent
    | d => [d]

theorem asRead_of_forall {history : List Deed}
    (h : ∀ text ∈ history.filterMap Deed.sent?, '\n' ∉ text.toList) : asRead history = history := by
  induction history with
  | nil => rfl
  | cons d ds ih =>
    unfold asRead at ih ⊢
    cases d with
    | sent text =>
      obtain ⟨htext, hds⟩ := List.forall_mem_cons.mp h
      rw [List.flatMap_cons, ih hds]
      simp only [linesOfCommand_of_not_mem htext]
      rfl
    | lost text | skipped line | matched line =>
      rw [List.flatMap_cons, ih h]
      rfl

/-- The commands of a connection account for every line that its debugger has read: there is
one line for each command that was sent, the transcript has gained an entry for each line, besides
those for commands that were lost, and the unanswered tokens are what the lines and their answers
leave outstanding. -/
structure Accounted (before : Transcript) (history : List Deed) (c : Connection) : Prop where
  lines : commandLines c.events = history.filterMap Deed.sent?
  entries : sentTexts c.transcript =
    sentTexts before ++ (asRead history).filterMap Deed.command?
  tokens : ∀ t, t ∈ c.unanswered ↔ Outstanding c.format (asRead history) t

/-- Behind any course of operations, against any debugger: a command that is neither refused nor
lost succeeds and puts its text and a newline on the input, and any other puts nothing there; the
transcript shows all commands in their order; the debugger has read the lines of those that were
sent in that order.  They account for all that it has read exactly if no text had a newline. -/
theorem accounted_iff (debugger : Debugger) (format : RecordFormat) (transcript : Transcript)
    (ops : List Operation) :
    let fresh := start debugger format transcript
    let c := fresh.performAll ops
    let history := fresh.history ops
    let sent := history.filterMap Deed.sent?
    (∀ text, c.closed = false → debugger.platform.refusal c.events text = none →
      (c.send text).1 = .ok ()) ∧
    (∀ text, Debugger.inputOf (c.send text).2.events =
      if (c.send text).1.isOk then Debugger.inputOf c.events ++ text ++ "\n"
      else Debugger.inputOf c.events) ∧
    sentTexts c.transcript = sentTexts transcript ++ history.filterMap Deed.command? ∧
    commandLines c.events = sent.flatMap linesOfCommand ∧
    (Accounted transcript history c ↔ ∀ text ∈ sent, '\n' ∉ text.toList) := by
  intro fresh c history sent
  have hthrough : Through fresh history c := through_performAll fresh ops
  have hlines : commandLines c.events = sent.flatMap linesOfCommand := by
    rw [commandLines_eq, hthrough.inputs]
    rfl
  refine ⟨fun text hopen hnone => ?_, inputOf_send c, hthrough.sentTexts, hlines, fun h => ?_,
    fun h => ?_⟩
  · obtain ⟨unanswered, entries, hsend⟩ := send_of_open hopen text
    have hplatform : c.debugger = debugger := (fresh.setting_performAll ops).1
    rw [hsend, write, hplatform, hnone]
  · exact flatMap_linesOfCommand.mp (hlines.symm.trans h.lines)
  · have hsent : commandLines c.events = sent := hlines.trans (flatMap_linesOfCommand.mpr h)
    have hread : asRead history = history := asRead_of_forall h
    refine ⟨hsent, by rw [hread]; exact hthrough.sentTexts, fun t => ?_⟩
    rw [hread, hthrough.unanswered, mem_replay, hthrough.format]
    exact or_iff_left fun hold => nomatch hold.1

/-- A text with a newline is two commands for the debugger.  The transcript shows one, and the
token of the second is not missed when it is used again. -/
theorem newline_unaccounted :
    let course : List Operation := [.send "1-exec-run\n2-exec-run", .send "2-exec-next"]
    let fresh := start .echo .mi .empty
    let c := fresh.performAll course
    c.closed = false ∧
    (fresh.history course).filterMap Deed.sent? = ["1-exec-run\n2-exec-run", "2-exec-next"] ∧
    commandLines c.events = ["1-exec-run", "2-exec-run", "2-exec-next"] ∧
    c.transcript.own = [.sent "1-exec-run\n2-exec-run", .sent "2-exec-next"] ∧
    ¬Accounted .empty (fresh.history course) c := by
  intro course fresh c
  have hlines : commandLines c.events = ["1-exec-run", "2-exec-run", "2-exec-next"] := by
    decide +kernel
  refine ⟨by decide +kernel, by decide +kernel, hlines, by decide +kernel, fun h => ?_⟩
  exact absurd (hlines.symm.trans h.lines) (by decide +kernel)

end Connection
end CheckScript
