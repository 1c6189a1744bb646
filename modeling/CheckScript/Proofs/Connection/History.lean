/-
What a connection has gone through, and what is left of it.

A course of operations is a history of deeds: commands that were sent or lost on their way, and
lines that were consumed, each of them wanted by its `expect` or not.  The tokens without an
answer, what the side of the script writes, and the lines that have left the queue are a matter
of that history alone (`through_performAll`), and one deed changes the tokens in one of two ways:
a command adds its token, a line takes the tokens away that it answers (`mem_leave`).
-/
import CheckScript.Proofs.Connection.Consumption
import CheckScript.Proofs.Record.Token

namespace CheckScript
namespace Connection

/-! ## Tokens of commands and answers

A command has its token in front: all the digits that it begins with.  A result line answers the
number that stands before its `^`. -/

/-- `text` begins with the digits of `t`, and no digit follows them. -/
def BeginsWith (text : String) (t : Nat) : Prop :=
  ∃ digits rest, text.toList = digits ++ rest ∧ Mi.Spells digits t ∧
    ∀ c, rest.head? = some c → Text.isDigit c = false

/-- `line` is a result line with the number `t`. -/
def ResultOf (line : String) (t : Nat) : Prop :=
  ∃ digits rest, line.toList = digits ++ '^' :: rest ∧ Mi.Spells digits t

theorem tokenOfCommand_eq_some {text : String} {t : Nat} :
    tokenOfCommand text = some t ↔ BeginsWith text t := by
  unfold tokenOfCommand
  rw [Mi.tokenOf_eq_some (Mi.splitDigits_digits _)]
  constructor
  · exact fun h => ⟨_, _, (Mi.splitDigits_join _).symm, h, Mi.splitDigits_rest _⟩
  · rintro ⟨digits, rest, htext, hspells, hrest⟩
    rwa [htext, Mi.splitDigits_append hspells.all_digits hrest]

theorem tokenOfAnswer_eq_some {line : String} {t : Nat} :
    tokenOfAnswer line = some t ↔ ResultOf line t := by
  unfold tokenOfAnswer
  simp only
  constructor
  · intro h
    split at h
    · rename_i hsign
      obtain ⟨rest, hrest⟩ := List.head?_eq_some_iff.mp hsign
      have hjoin := Mi.splitDigits_join line.toList
      rw [hrest] at hjoin
      exact ⟨_, rest, hjoin.symm, (Mi.tokenOf_eq_some (Mi.splitDigits_digits _)).mp h⟩
    · cases h
  · rintro ⟨digits, rest, hline, hspells⟩
    have hsign : ∀ c, ('^' :: rest).head? = some c → Text.isDigit c = false := by
      rintro c ⟨⟩
      decide
    rw [hline, Mi.splitDigits_append hspells.all_digits hsign]
    simpa using (Mi.tokenOf_eq_some hspells.all_digits).mpr hspells

/-! ## Deeds -/

/-- A command that was sent or lost, or a line that was consumed.  A line is matched if it begins
as its `expect` wants, and skipped otherwise. -/
inductive Deed where
  | sent (text : String)
  | lost (text : String)
  | skipped (line : String)
  | matched (line : String)
deriving DecidableEq, Repr

namespace Deed

def sent? : Deed → Option String
  | sent text => some text
  | _ => none

/-- The command, whether it has reached the debugger or not. -/
def command? : Deed → Option String
  | sent text | lost text => some text
  | _ => none

/-- The line that was consumed. -/
def line? : Deed → Option String
  | sent _ | lost _ => none
  | skipped line | matched line => some line

/-- A command with the token `t` was sent or lost. -/
def Launches (t : Nat) : Deed → Prop
  | sent text | lost text => BeginsWith text t
  | _ => False

/-- A result line answers its number.  A line that was matched and read answers the token of
its record, too. -/
def Answers (format : RecordFormat) (t : Nat) : Deed → Prop
  | sent _ | lost _ => False
  | skipped line => ResultOf line t
  | matched line => ResultOf line t ∨ ∃ r, format.read line = .ok r ∧ r.token = some t

end Deed

/-- The deeds of looking through `lines` for one that begins as wanted. -/
def search (wanted : String) : List String → List Deed
  | [] => []
  | line :: lines =>
    if Text.startsWith line wanted then [.matched line] else .skipped line :: search wanted lines

/-- A command that is written is sent, unless it is lost to a fault of the machine. -/
def attempt (c : Connection) (text : String) : Deed :=
  if (c.debugger.platform.refusal c.events text).isSome then .lost text else .sent text

/-- What an operation does.  A command that is refused does nothing, and neither does a wait
without a deadline. -/
def deeds (c : Connection) : Operation → List Deed
  | .send text => if c.closed then [] else [c.attempt text]
  | .expect wanted timeout =>
    if c.hasDeadline timeout then search wanted (c.react .wait).collect.queue else []
  | .close => []

def history (c : Connection) : List Operation → List Deed
  | [] => []
  | op :: ops => c.deeds op ++ (c.perform op).history ops

/-! ## What deeds leave behind -/

/-- The tokens that are unanswered once a command with this token is on its way. -/
def announce (token : Option Nat) (unanswered : List Nat) : List Nat :=
  match token with
  | none => unanswered
  | some t => if t ∈ unanswered then unanswered else t :: unanswered

/-- What is noted before a command with this token is sent. -/
def warnings (token : Option Nat) (unanswered : List Nat) : List Entry :=
  match token with
  | none => []
  | some t => if t ∈ unanswered then [.note (reuseWarning t)] else []

namespace Deed

/-- The tokens that are unanswered behind a deed. -/
def leave (format : RecordFormat) (unanswered : List Nat) : Deed → List Nat
  | sent text | lost text => announce (tokenOfCommand text) unanswered
  | skipped line => forget (tokenOfAnswer line) unanswered
  | matched line =>
    (Connection.matched format line [] (forget (tokenOfAnswer line) unanswered)).unanswered

/-- What the side of the script writes into the transcript at a deed. -/
def entries (unanswered : List Nat) : Deed → List Entry
  | sent text | lost text => warnings (tokenOfCommand text) unanswered ++ [.sent text]
  | _ => []

end Deed

/-- The tokens that are unanswered behind a history. -/
def replay (format : RecordFormat) (unanswered : List Nat) (deeds : List Deed) : List Nat :=
  deeds.foldl (Deed.leave format) unanswered

/-- What the side of the script writes in the course of a history. -/
def report (format : RecordFormat) (unanswered : List Nat) : List Deed → List Entry
  | [] => []
  | d :: ds => d.entries unanswered ++ report format (d.leave format unanswered) ds

theorem replay_append (format : RecordFormat) (unanswered : List Nat) (ds es : List Deed) :
    replay format unanswered (ds ++ es) = replay format (replay format unanswered ds) es :=
  List.foldl_append

theorem report_append (format : RecordFormat) (unanswered : List Nat) (ds es : List Deed) :
    report format unanswered (ds ++ es) =
      report format unanswered ds ++ report format (replay format unanswered ds) es := by
  induction ds generalizing unanswered with
  | nil => rfl
  | cons d ds ih =>
    rw [List.cons_append, report, ih, report, List.append_assoc]
    rfl

theorem mem_announce {token : Option Nat} {unanswered : List Nat} {t : Nat} :
    t ∈ announce token unanswered ↔ token = some t ∨ t ∈ unanswered := by
  cases token with
  | none => simp [announce]
  | some u =>
    unfold announce
    simp only
    split
    · rename_i hmem
      constructor
      · exact Or.inr
      · rintro (heq | ht)
        · exact Option.some.inj heq ▸ hmem
        · exact ht
    · rw [List.mem_cons, Option.some.injEq, eq_comm]

theorem mem_forget {token : Option Nat} {unanswered : List Nat} {t : Nat} :
    t ∈ forget token unanswered ↔ t ∈ unanswered ∧ token ≠ some t := by
  cases token with
  | none => simp [forget]
  | some u =>
    show t ∈ unanswered.filter (· != u) ↔ _
    rw [List.mem_filter, bne_iff_ne, ne_comm, ne_eq, ne_eq, Option.some.injEq]

/-- A deed that launches `t` makes it unanswered, a deed that answers it takes it away, and
all others leave it as it was. -/
theorem mem_leave {format : RecordFormat} {unanswered : List Nat} {d : Deed} {t : Nat} :
    t ∈ d.leave format unanswered ↔
      d.Launches t ∨ t ∈ unanswered ∧ ¬d.Answers format t := by
  cases d with
  | sent text | lost text =>
    show t ∈ announce _ _ ↔ BeginsWith text t ∨ t ∈ unanswered ∧ ¬False
    rw [mem_announce, tokenOfCommand_eq_some, and_iff_left not_false]
  | skipped line =>
    show t ∈ forget _ _ ↔ False ∨ t ∈ unanswered ∧ ¬ResultOf line t
    rw [mem_forget, false_or, ← tokenOfAnswer_eq_some]
  | matched line =>
    show t ∈ (Connection.matched format line [] _).unanswered ↔
      False ∨ t ∈ unanswered ∧ ¬(ResultOf line t ∨ ∃ r, format.read line = .ok r ∧ _)
    rw [false_or, not_or, ← tokenOfAnswer_eq_some, ← and_assoc]
    unfold Connection.matched
    split
    · rename_i fault hread
      rw [mem_forget, hread]
      simp
    · rename_i r hread
      rw [mem_forget, mem_forget, hread]
      simp

/-! ## Operations as deeds -/

/-- An event changes nothing but what the debugger knows and has written. -/
theorem frame_react (c : Connection) (e : Event) :
    (c.react e).queue = c.queue ∧ (c.react e).unanswered = c.unanswered ∧
      (c.react e).transcript = c.transcript ∧ (c.react e).events = e :: c.events := by
  obtain ⟨_, _, h⟩ := c.react_eq e
  rw [h]
  exact ⟨rfl, rfl, rfl, rfl⟩

theorem unanswered_launch (c : Connection) (token : Option Nat) :
    (c.launch token).unanswered = announce token c.unanswered := by
  cases token with
  | none => rfl
  | some t =>
    unfold launch announce
    simp only
    split <;> rfl

theorem entries_launch (c : Connection) (token : Option Nat) :
    (c.launch token).transcript.entries.toList =
      c.transcript.entries.toList ++ warnings token c.unanswered := by
  cases token with
  | none => exact (List.append_nil _).symm
  | some t =>
    unfold launch warnings
    simp only
    split
    · exact Transcript.toList_push _ _
    · exact (List.append_nil _).symm

theorem frame_launch (c : Connection) (token : Option Nat) :
    (c.launch token).queue = c.queue ∧ (c.launch token).events = c.events := by
  obtain ⟨_, _, hlaunch⟩ := c.launch_eq token
  rw [hlaunch]
  exact ⟨rfl, rfl⟩

/-- A command that is not refused is written behind the warning that it may need. -/
theorem entries_send {c : Connection} (h : c.closed = false) (text : String) :
    (c.send text).2.transcript.entries.toList =
      c.transcript.entries.toList ++ warnings (tokenOfCommand text) c.unanswered ++
        [.sent text] := by
  rw [send, if_neg (by rw [h]; exact Bool.false_ne_true)]
  show (react _ _).transcript.entries.toList = _
  rw [(frame_react _ _).2.2.1, ← entries_launch]
  exact Transcript.toList_push _ _

/-- What is made of a line does not depend on the lines behind it. -/
theorem matched_behind (format : RecordFormat) (line : String) (queue later : List String)
    (unanswered : List Nat) :
    matched format line later unanswered =
      { matched format line queue unanswered with queue := later } := by
  unfold matched
  split <;> rfl

theorem consume_unanswered (format : RecordFormat) (wanted : String) (missing : Failure)
    (unanswered : List Nat) (lines : List String) :
    (consume format wanted missing unanswered lines).unanswered =
      replay format unanswered (search wanted lines) := by
  induction lines generalizing unanswered with
  | nil => rfl
  | cons line lines ih =>
    rw [consume, search]
    split
    · rw [matched_behind format line [] lines]
      rfl
    · exact ih _

theorem search_lines (wanted : String) (lines : List String) :
    (search wanted lines).filterMap Deed.line? =
      lines.take (lines.findIdx (Text.startsWith · wanted) + 1) := by
  induction lines with
  | nil => rfl
  | cons line lines ih =>
    rw [search, List.findIdx_cons]
    cases Text.startsWith line wanted with
    | true => rfl
    | false =>
      show line :: (search wanted lines).filterMap Deed.line? = _
      rw [ih]
      rfl

theorem search_sent (wanted : String) (lines : List String) :
    (search wanted lines).filterMap Deed.sent? = [] := by
  induction lines with
  | nil => rfl
  | cons line lines ih =>
    rw [search]
    split
    · rfl
    · exact ih

theorem search_report (format : RecordFormat) (unanswered : List Nat) (wanted : String)
    (lines : List String) : report format unanswered (search wanted lines) = [] := by
  induction lines generalizing unanswered with
  | nil => rfl
  | cons line lines ih =>
    rw [search]
    split
    · rfl
    · exact ih _

/-- The texts that reached the input of the debugger, the first one first. -/
def inputs (events : List Event) : List String :=
  events.reverse.filterMap fun
    | .input text => some text
    | _ => none

theorem inputs_cons (e : Event) (events : List Event) :
    inputs (e :: events) = inputs events ++ inputs [e] := by
  unfold inputs
  rw [List.reverse_cons, List.filterMap_append]
  rfl

/-- Whether it is lost or not, an attempt announces its command and writes it down. -/
theorem attempt_written (c : Connection) (text : String) :
    (∀ format unanswered, replay format unanswered [c.attempt text] =
      announce (tokenOfCommand text) unanswered) ∧
    (∀ format unanswered, report format unanswered [c.attempt text] =
      warnings (tokenOfCommand text) unanswered ++ [.sent text]) ∧
    [c.attempt text].filterMap Deed.line? = [] ∧
    inputs [(c.write text).2] = [c.attempt text].filterMap Deed.sent? := by
  unfold attempt
  rcases c.write_cases text with ⟨hnone, hwrite⟩ | ⟨fault, hsome, hwrite⟩
  · rw [hnone, hwrite]
    exact ⟨fun _ _ => rfl, fun _ _ => List.append_nil _, rfl, rfl⟩
  · rw [hsome, hwrite]
    exact ⟨fun _ _ => rfl, fun _ _ => List.append_nil _, rfl, rfl⟩

/-- `c` has come to `d` by the deeds `ds`: they account for the tokens, for what the side of
the script wrote, for the lines that have left the queue, and for the texts that reached the
debugger. -/
structure Through (c : Connection) (ds : List Deed) (d : Connection) : Prop where
  format : d.format = c.format
  unanswered : d.unanswered = replay c.format c.unanswered ds
  own : d.transcript.own = c.transcript.own ++ report c.format c.unanswered ds
  received : ∀ {before}, c.transcript.received = before ++ c.queue →
    d.transcript.received = before ++ ds.filterMap Deed.line? ++ d.queue
  inputs : inputs d.events = inputs c.events ++ ds.filterMap Deed.sent?

namespace Through

theorem refl (c : Connection) : Through c [] c where
  format := rfl
  unanswered := rfl
  own := (List.append_nil _).symm
  received h := by rw [h]; simp
  inputs := (List.append_nil _).symm

theorem trans {c d e : Connection} {ds es : List Deed} (hd : Through c ds d)
    (he : Through d es e) : Through c (ds ++ es) e where
  format := he.format.trans hd.format
  unanswered := by rw [replay_append, ← hd.unanswered, ← hd.format, he.unanswered]
  own := by
    rw [report_append, ← hd.unanswered, ← List.append_assoc, ← hd.own, ← hd.format, he.own]
  received h := by
    rw [List.filterMap_append, ← List.append_assoc, he.received (hd.received h)]
  inputs := by rw [List.filterMap_append, ← List.append_assoc, ← hd.inputs, he.inputs]

end Through

theorem warnings_own (token : Option Nat) (unanswered : List Nat) :
    ∀ e ∈ warnings token unanswered, e.received? = none := by
  intro e he
  unfold warnings at he
  split at he
  · cases he
  · split at he
    · rw [List.mem_singleton.mp he]
      rfl
    · cases he

theorem own_launch (c : Connection) (token : Option Nat) :
    (c.launch token).transcript.own = c.transcript.own ++ warnings token c.unanswered ∧
      (c.launch token).transcript.received = c.transcript.received :=
  Transcript.own_append (c.entries_launch token) (warnings_own token c.unanswered)

theorem through_send (c : Connection) (text : String) :
    Through c (c.deeds (.send text)) (c.send text).2 := by
  cases h : c.closed with
  | true =>
    rw [send_of_closed h, deeds, if_pos h]
    exact .refl c
  | false =>
    have hopen : ¬c.closed = true := by rw [h]; exact Bool.false_ne_true
    have hsent : (c.send text).2 =
        ((c.launch (tokenOfCommand text)).log (.sent text)).react (c.write text).2 := by
      rw [send, if_neg hopen]
    obtain ⟨hqueue, hunanswered, -, hevents⟩ :=
      frame_react ((c.launch (tokenOfCommand text)).log (.sent text)) (c.write text).2
    rw [← hsent] at hqueue hunanswered hevents
    obtain ⟨hqueue', hevents'⟩ := c.frame_launch (tokenOfCommand text)
    have hentries := entries_send h text
    rw [List.append_assoc] at hentries
    obtain ⟨hown, hreceived⟩ := Transcript.own_append hentries fun e he => by
      rcases List.mem_append.mp he with he | he
      · exact warnings_own _ _ e he
      · rw [List.mem_singleton.mp he]
        rfl
    obtain ⟨hleave, hreport, hline, hinputs⟩ := c.attempt_written text
    rw [deeds, if_neg hopen]
    refine ⟨(c.setting_perform (.send text)).2, ?_, ?_, fun {before} hbefore => ?_, ?_⟩
    · rw [hunanswered]
      exact (unanswered_launch c _).trans (hleave _ _).symm
    · rw [hown, hreport]
    · rw [hreceived, hbefore, hqueue, hline, List.append_nil]
      exact congrArg (before ++ ·) hqueue'.symm
    · rw [hevents]
      show inputs ((c.write text).2 :: (c.launch _).events) = _
      rw [hevents', inputs_cons, hinputs]

theorem through_await (c : Connection) (wanted : String) (timeout : Duration) :
    Through c (search wanted (c.react .wait).collect.queue) (c.await wanted timeout).2 := by
  obtain ⟨hqueue, hunanswered, htranscript, hevents⟩ := c.frame_react .wait
  have hcollected : (c.react .wait).collect.unanswered = c.unanswered := hunanswered
  have hformat : (c.react .wait).collect.format = c.format := (c.setting_react .wait).2
  refine ⟨hformat, ?_, ?_, fun {before} hbefore => ?_, ?_⟩
  · show (consume _ _ _ _ _).unanswered = _
    rw [consume_unanswered, hcollected, hformat]
  · show (c.react .wait).collect.transcript.own = _
    rw [own_collect, htranscript, search_report, List.append_nil]
  · show (c.react .wait).collect.transcript.received = _ ++ (consume _ _ _ _ _).queue
    rw [received_collect, htranscript, hbefore, search_lines, consume_queue,
      List.append_assoc, List.append_assoc, List.take_append_drop, ← hqueue]
    rfl
  · show inputs (c.react .wait).events = _
    rw [hevents, search_sent, inputs_cons]
    rfl

theorem through_expect (c : Connection) (wanted : String) (timeout : Duration) :
    Through c (c.deeds (.expect wanted timeout)) (c.expect wanted timeout).2 := by
  rw [deeds]
  cases h : c.hasDeadline timeout with
  | true =>
    rw [expect_of_deadline h]
    exact through_await c wanted timeout
  | false =>
    rw [expect_of_not_deadline h]
    exact .refl c

/-- What waiting makes of a debugger that has written everything. -/
theorem Settled.await_eq {ended : Bool} {c : Connection} (h : Settled ended c) (wanted : String)
    (timeout : Duration) :
    let r := consume c.format wanted (c.missing wanted timeout c.waited) c.unanswered c.pending
    let d := (c.await wanted timeout).2
    (c.await wanted timeout).1 = r.result ∧ d.unanswered = r.unanswered ∧
      d.pending = r.queue ∧ d.transcript.own = c.transcript.own := by
  unfold Connection.await
  simp only [h.react]
  exact ⟨rfl, rfl, List.append_nil _, c.own_collect⟩

theorem own_send {c : Connection} (h : c.closed = false) (text : String) :
    (c.send text).2.transcript.own =
      c.transcript.own ++ (warnings (tokenOfCommand text) c.unanswered ++ [.sent text]) := by
  have hthrough := through_send c text
  rw [deeds, if_neg (by rw [h]; exact Bool.false_ne_true)] at hthrough
  rw [hthrough.own, (c.attempt_written text).2.1]

theorem own_expect (c : Connection) (wanted : String) (timeout : Duration) :
    (c.expect wanted timeout).2.transcript.own = c.transcript.own := by
  rcases c.expect_cases wanted timeout with h | h <;> rw [h]
  rw [(through_await c wanted timeout).own, search_report, List.append_nil]

theorem through_close (c : Connection) : Through c (c.deeds .close) c.close := by
  cases h : c.closed with
  | true =>
    rw [close_of_closed h]
    exact .refl c
  | false =>
    obtain ⟨hqueue, hunanswered, htranscript, hevents⟩ := c.frame_react .inputEnd
    rw [close_of_open h]
    refine ⟨(c.setting_react .inputEnd).2, hunanswered, ?_, fun {before} hbefore => ?_, ?_⟩
    · show (c.react .inputEnd).collect.transcript.own = _
      rw [own_collect, htranscript]
      exact (List.append_nil _).symm
    · show (c.react .inputEnd).collect.transcript.received =
        before ++ [] ++ ((c.react .inputEnd).queue ++ (c.react .inputEnd).arriving)
      rw [received_collect, htranscript, hbefore, hqueue, List.append_nil, List.append_assoc]
    · show inputs (c.react .inputEnd).events = _
      rw [hevents, inputs_cons]
      rfl

theorem through_perform (c : Connection) (op : Operation) :
    Through c (c.deeds op) (c.perform op) := by
  cases op with
  | send text => exact through_send c text
  | expect wanted timeout => exact through_expect c wanted timeout
  | close => exact through_close c

theorem through_performAll (c : Connection) (ops : List Operation) :
    Through c (c.history ops) (c.performAll ops) := by
  induction ops generalizing c with
  | nil => exact .refl c
  | cons op ops ih => exact (through_perform c op).trans (ih (c.perform op))

end Connection
end CheckScript
