/-
Which tokens are unanswered.

A token is unanswered exactly if no line has answered it since it was last sent, and the
reuse warning tells the truth about it (`unanswered_iff_outstanding`).

A line that an `expect` matches answers the token of its record even if it is no result
line.  Such a line is stray if its token is unanswered: skipped, it would have left the
token alone.  Strays are all that keeps the tokens from being a matter of the result lines
(`results_answer_iff`).  The digits in front of a line are read in two places, and both come to
the same token (`tokens_agree`).
-/
import CheckScript.Proofs.Connection.History
import CheckScript.Proofs.Record.Leading
import CheckScript.Proofs.Text.Lines

namespace CheckScript
namespace Connection

/-! ## Commands in the transcript -/

/-- The text of an entry about a command. -/
def sentText? : Entry → Option String
  | .sent text => some text
  | _ => none

/-- The commands that a transcript shows. -/
def sentTexts (t : Transcript) : List String := t.own.filterMap sentText?

theorem sentText?_warnings (token : Option Nat) (unanswered : List Nat) :
    (warnings token unanswered).filterMap sentText? = [] := by
  unfold warnings
  split
  · rfl
  · split <;> rfl

/-- The side of the script writes down every command, once. -/
theorem sentText?_report (format : RecordFormat) (unanswered : List Nat) (ds : List Deed) :
    (report format unanswered ds).filterMap sentText? = ds.filterMap Deed.command? := by
  induction ds generalizing unanswered with
  | nil => rfl
  | cons d ds ih =>
    rw [report, List.filterMap_append, ih]
    cases d with
    | sent text | lost text =>
      rw [Deed.entries, List.filterMap_append, sentText?_warnings]
      rfl
    | skipped line | matched line => rfl

theorem Through.sentTexts {c d : Connection} {ds : List Deed} (h : Through c ds d) :
    sentTexts d.transcript = sentTexts c.transcript ++ ds.filterMap Deed.command? := by
  rw [Connection.sentTexts, h.own, List.filterMap_append, sentText?_report]
  rfl

/-! ## Since a token was last sent -/

/-- A command with the token `t` was sent or lost, and since the last such command no line has
answered it. -/
def Outstanding (format : RecordFormat) (history : List Deed) (t : Nat) : Prop :=
  ∃ before d after, history = before ++ d :: after ∧ d.Launches t ∧
    ∀ e ∈ after, ¬e.Launches t ∧ ¬e.Answers format t

theorem outstanding_cons {format : RecordFormat} {d : Deed} {ds : List Deed} {t : Nat} :
    Outstanding format (d :: ds) t ↔
      Outstanding format ds t ∨ d.Launches t ∧ ∀ e ∈ ds, ¬e.Launches t ∧ ¬e.Answers format t := by
  constructor
  · rintro ⟨before, launch, after, hds, hlaunches, hafter⟩
    cases before with
    | nil =>
      obtain ⟨rfl, rfl⟩ := List.cons.inj hds
      exact .inr ⟨hlaunches, hafter⟩
    | cons e before =>
      obtain ⟨-, rfl⟩ := List.cons.inj hds
      exact .inl ⟨before, launch, after, rfl, hlaunches, hafter⟩
  · rintro (⟨before, launch, after, rfl, hlaunches, hafter⟩ | ⟨hlaunches, hds⟩)
    · exact ⟨d :: before, launch, after, rfl, hlaunches, hafter⟩
    · exact ⟨[], d, ds, rfl, hlaunches, hds⟩

theorem mem_replay {format : RecordFormat} {unanswered : List Nat} {ds : List Deed} {t : Nat} :
    t ∈ replay format unanswered ds ↔
      Outstanding format ds t ∨
        t ∈ unanswered ∧ ∀ d ∈ ds, ¬d.Launches t ∧ ¬d.Answers format t := by
  induction ds generalizing unanswered with
  | nil =>
    have hnone : ¬Outstanding format [] t := by
      rintro ⟨before, _, _, hds, -⟩
      cases before <;> cases hds
    simp [replay, hnone]
  | cons d ds ih =>
    show t ∈ replay format (d.leave format unanswered) ds ↔ _
    rw [ih, outstanding_cons, mem_leave, List.forall_mem_cons]
    by_cases hlaunches : d.Launches t
    · simp only [hlaunches, true_or, true_and, not_true, false_and, and_false, or_false]
    · simp only [hlaunches, false_or, false_and, or_false, not_false_eq_true, true_and, and_assoc]

theorem mem_warnings {text : String} {unanswered : List Nat} {e : Entry} :
    e ∈ warnings (tokenOfCommand text) unanswered ↔
      ∃ t, BeginsWith text t ∧ t ∈ unanswered ∧ e = .note (reuseWarning t) := by
  simp only [← tokenOfCommand_eq_some]
  cases tokenOfCommand text with
  | none => simp [warnings]
  | some u =>
    unfold warnings
    simp only [Option.some.injEq]
    split
    · rename_i hmem
      rw [List.mem_singleton]
      constructor
      · rintro rfl
        exact ⟨u, rfl, hmem, rfl⟩
      · rintro ⟨t, rfl, -, he⟩
        exact he
    · rename_i hmem
      constructor
      · exact fun he => nomatch he
      · rintro ⟨t, rfl, ht, -⟩
        exact absurd ht hmem

theorem warnings_length (token : Option Nat) (unanswered : List Nat) :
    (warnings token unanswered).length ≤ 1 := by
  unfold warnings
  split
  · exact Nat.zero_le 1
  · split
    · exact Nat.le_refl 1
    · exact Nat.zero_le 1

/-- Behind any course of operations, against any debugger, the unanswered tokens are the
outstanding ones of the history.  A command with an outstanding token is written behind
a warning, any other without; a closed connection refuses it.  The history leaves nothing
out: its lines are those that were received and are gone from the queue, its commands are those
that the transcript shows, and those of them that were not lost are what reached the debugger. -/
theorem unanswered_iff_outstanding (debugger : Debugger) (format : RecordFormat)
    (transcript : Transcript) (ops : List Operation) :
    let fresh := start debugger format transcript
    let c := fresh.performAll ops
    let history := fresh.history ops
    (∀ t, t ∈ c.unanswered ↔ Outstanding format history t) ∧
    (∀ text, c.closed = false →
      ∃ notes, notes.length ≤ 1 ∧
        (c.send text).2.transcript.entries.toList =
          c.transcript.entries.toList ++ notes ++ [.sent text] ∧
        ∀ e, e ∈ notes ↔ ∃ t, BeginsWith text t ∧ Outstanding format history t ∧
          e = .note s!"warning: token {t} reused while in flight") ∧
    (∀ text, c.closed = true → c.send text = (.error .inputClosed, c)) ∧
    c.transcript.received = transcript.received ++ history.filterMap Deed.line? ++ c.queue ∧
    sentTexts c.transcript = sentTexts transcript ++ history.filterMap Deed.command? ∧
    inputs c.events = history.filterMap Deed.sent? := by
  intro fresh c history
  have hthrough : Through fresh history c := through_performAll fresh ops
  have htokens : ∀ t, t ∈ c.unanswered ↔ Outstanding format history t := by
    intro t
    rw [hthrough.unanswered, mem_replay]
    exact or_iff_left fun h => nomatch h.1
  refine ⟨htokens, fun text hopen => ?_, fun text hclosed => send_of_closed hclosed text,
    hthrough.received (List.append_nil _).symm, hthrough.sentTexts, hthrough.inputs⟩
  refine ⟨warnings (tokenOfCommand text) c.unanswered, warnings_length _ _,
    entries_send hopen text, fun e => ?_⟩
  simp only [mem_warnings, htokens]
  rfl

/-! ## Records with a token that are no results -/

/-- `line` is an asynchronous record with the number `t`. -/
def AsyncOf (line : String) (t : Nat) : Prop :=
  ∃ digits sign rest, line.toList = digits ++ sign :: rest ∧ sign ∈ ['*', '+', '='] ∧
    Mi.Spells digits t

/-- The token of a record stands in front of its line. -/
theorem resultOf_or_asyncOf {format : RecordFormat} {line : String} {r : Record} {t : Nat}
    (h : format.read line = .ok r) (ht : r.token = some t) : ResultOf line t ∨ AsyncOf line t := by
  cases format with
  | raw =>
    obtain rfl := Except.ok.inj h
    cases ht
  | mi =>
    have hread := Mi.read_eq_ok.mp h
    obtain ⟨rest, hrest, -⟩ := Text.dropReturn_append line.toList
    generalize Text.dropReturn line.toList = cs at hread hrest
    have hkind := Mi.kind_of_token hread (by rw [ht]; exact Option.some_ne_none t)
    obtain ⟨hdigits, hclass, hsign, -, -, -, -⟩ := Mi.readLine_text hread hkind
    have hspells := (Mi.tokenOf_eq_some hdigits).mp ht
    rw [List.append_assoc] at hrest
    simp only [Mi.classKinds, List.mem_cons, List.not_mem_nil, or_false] at hclass
    rcases hclass with rfl | rfl | rfl | rfl <;> cases hsign
    · exact .inl ⟨_, _, hrest.symm, hspells⟩
    all_goals exact .inr ⟨_, _, _, hrest.symm, by decide, hspells⟩

/-- A matched line that answers a token without being a result line. -/
def Stray (format : RecordFormat) (unanswered : List Nat) (line : String) : Prop :=
  ∃ r t, format.read line = .ok r ∧ r.token = some t ∧ t ∈ unanswered ∧ AsyncOf line t

theorem AsyncOf.not_resultOf {line : String} {t u : Nat} (h : AsyncOf line t) :
    ¬ResultOf line u := by
  obtain ⟨digits, sign, rest, hline, hsign, hspells⟩ := h
  rintro ⟨others, after, hresult, hothers⟩
  have hdigit : ∀ c, (sign :: rest).head? = some c → Text.isDigit c = false := by
    rintro c ⟨⟩
    simp only [List.mem_cons, List.not_mem_nil, or_false] at hsign
    rcases hsign with rfl | rfl | rfl <;> decide
  have hcaret : ∀ c, ('^' :: after).head? = some c → Text.isDigit c = false := by
    rintro c ⟨⟩
    decide
  have hsplit := Mi.splitDigits_append hspells.all_digits hdigit
  rw [← hline, hresult, Mi.splitDigits_append hothers.all_digits hcaret] at hsplit
  obtain ⟨rfl, -⟩ := List.cons.inj (Prod.mk.inj hsplit).2
  revert hsign
  decide

/-- The deed consumes a result line with the number `t`. -/
def Deed.ShowsResult (t : Nat) (d : Deed) : Prop := ∃ line, d.line? = some line ∧ ResultOf line t

/-- Every deed adds the token that it sends, and takes those away whose result line it consumes,
wanted or not; it changes nothing else. -/
def ResultsAnswer (format : RecordFormat) (unanswered : List Nat) (history : List Deed) : Prop :=
  ∀ before d after, history = before ++ d :: after →
    ∀ t, t ∈ replay format unanswered (before ++ [d]) ↔
      d.Launches t ∨ t ∈ replay format unanswered before ∧ ¬d.ShowsResult t

/-- No line of the history was a stray when it was matched. -/
def Strayless (format : RecordFormat) (unanswered : List Nat) (history : List Deed) : Prop :=
  ∀ before line after, history = before ++ .matched line :: after →
    ¬Stray format (replay format unanswered before) line

theorem leave_answers_iff {format : RecordFormat} {unanswered : List Nat} {d : Deed} :
    (∀ t, t ∈ d.leave format unanswered ↔ d.Launches t ∨ t ∈ unanswered ∧ ¬d.ShowsResult t) ↔
      ∀ line, d = .matched line → ¬Stray format unanswered line := by
  constructor
  · rintro h line rfl ⟨r, t, hread, htoken, ht, hasync⟩
    have hkept : t ∈ Deed.leave format unanswered (.matched line) := by
      refine (h t).mpr (.inr ⟨ht, ?_⟩)
      rintro ⟨_, ⟨⟩, hresult⟩
      exact hasync.not_resultOf hresult
    rcases mem_leave.mp hkept with hlaunches | ⟨-, hanswers⟩
    · exact hlaunches
    · exact hanswers (.inr ⟨r, hread, htoken⟩)
  · intro h t
    rw [mem_leave]
    refine or_congr_right (and_congr_right fun ht => not_congr ?_)
    cases d with
    | sent text | lost text =>
      constructor
      · exact fun hanswers => hanswers.elim
      · rintro ⟨_, ⟨⟩, -⟩
    | skipped line =>
      constructor
      · exact fun hresult => ⟨line, rfl, hresult⟩
      · rintro ⟨_, ⟨⟩, hresult⟩
        exact hresult
    | matched line =>
      constructor
      · rintro (hresult | ⟨r, hread, htoken⟩)
        · exact ⟨line, rfl, hresult⟩
        · rcases resultOf_or_asyncOf hread htoken with hresult | hasync
          · exact ⟨line, rfl, hresult⟩
          · exact absurd ⟨r, t, hread, htoken, ht, hasync⟩ (h line rfl)
      · rintro ⟨_, ⟨⟩, hresult⟩
        exact .inl hresult

theorem resultsAnswer_iff_strayless {format : RecordFormat} {unanswered : List Nat}
    {history : List Deed} :
    ResultsAnswer format unanswered history ↔ Strayless format unanswered history := by
  have hsnoc : ∀ before d, replay format unanswered (before ++ [d]) =
      d.leave format (replay format unanswered before) :=
    fun before d => replay_append format unanswered before [d]
  constructor
  · intro h before line after hhistory
    have hd := h before _ after hhistory
    rw [hsnoc] at hd
    exact leave_answers_iff.mp hd line rfl
  · intro h before d after hhistory
    rw [hsnoc]
    refine leave_answers_iff.mpr fun line hd => ?_
    subst hd
    exact h before line after hhistory

/-! ## Wanted or not -/

/-- The deed without the difference that its `expect` makes. -/
def Deed.unwanted : Deed → Deed
  | matched line => skipped line
  | d => d

theorem leave_unwanted {format : RecordFormat} {unanswered : List Nat} {d : Deed}
    (h : ∀ line, d = .matched line → ¬Stray format unanswered line) :
    d.leave format unanswered = d.unwanted.leave format unanswered := by
  cases d with
  | sent text | lost text | skipped line => rfl
  | matched line =>
    show (Connection.matched format line [] _).unanswered = forget (tokenOfAnswer line) unanswered
    unfold Connection.matched
    split
    · rfl
    · rename_i r hread
      show forget r.token _ = _
      cases htoken : r.token with
      | none => rfl
      | some t =>
        -- the token of the record is gone already, or was never unanswered
        refine List.filter_eq_self.mpr fun u hu => bne_iff_ne.mpr ?_
        rintro rfl
        obtain ⟨hmem, hother⟩ := mem_forget.mp hu
        rcases resultOf_or_asyncOf hread htoken with hresult | hasync
        · exact hother (tokenOfAnswer_eq_some.mpr hresult)
        · exact h line rfl ⟨r, u, hread, htoken, hmem, hasync⟩

theorem Strayless.tail {format : RecordFormat} {unanswered : List Nat} {d : Deed}
    {ds : List Deed} (h : Strayless format unanswered (d :: ds)) :
    Strayless format (d.leave format unanswered) ds :=
  fun before line after hds => h (d :: before) line after (congrArg (d :: ·) hds)

/-- Without strays a history leaves and writes what it would have with all its lines
skipped. -/
theorem Strayless.unwanted {format : RecordFormat} {unanswered : List Nat} {ds : List Deed}
    (h : Strayless format unanswered ds) :
    replay format unanswered ds = replay format unanswered (ds.map Deed.unwanted) ∧
      report format unanswered ds = report format unanswered (ds.map Deed.unwanted) := by
  induction ds generalizing unanswered with
  | nil => exact ⟨rfl, rfl⟩
  | cons d ds ih =>
    have hleave : d.leave format unanswered = d.unwanted.leave format unanswered :=
      leave_unwanted fun line hd => h [] line ds (congrArg (· :: ds) hd)
    obtain ⟨hreplay, hreport⟩ := ih h.tail
    have hentries : d.entries unanswered = d.unwanted.entries unanswered := by
      cases d <;> rfl
    constructor
    · show replay format (d.leave format unanswered) ds =
        replay format (d.unwanted.leave format unanswered) _
      rw [← hleave, hreplay]
    · rw [List.map_cons, report, report, hreport, hentries, ← hleave]

/-- Only result lines take tokens away, exactly as long as no `expect` matches a stray, an
asynchronous record with an unanswered token.  Two courses of operations that send the same
commands and consume the same lines in the same order, whatever lines they want, then come
to the same tokens and have written the same warnings. -/
theorem results_answer_iff (c : Connection) (ops : List Operation) :
    (ResultsAnswer c.format c.unanswered (c.history ops) ↔
      Strayless c.format c.unanswered (c.history ops)) ∧
    ∀ (d : Connection) (others : List Operation), d.format = c.format →
      d.unanswered = c.unanswered →
      (c.history ops).map Deed.unwanted = (d.history others).map Deed.unwanted →
      Strayless c.format c.unanswered (c.history ops) →
      Strayless d.format d.unanswered (d.history others) →
      (c.performAll ops).unanswered = (d.performAll others).unanswered ∧
      ∃ written, (c.performAll ops).transcript.own = c.transcript.own ++ written ∧
        (d.performAll others).transcript.own = d.transcript.own ++ written := by
  refine ⟨resultsAnswer_iff_strayless, fun d others hformat hunanswered hsame hc hd => ?_⟩
  have hthrough := through_performAll c ops
  have hother := through_performAll d others
  obtain ⟨hreplay, hreport⟩ := hc.unwanted
  obtain ⟨hreplay', hreport'⟩ := hd.unwanted
  rw [← hsame, hformat, hunanswered] at hreplay' hreport'
  refine ⟨?_, report c.format c.unanswered (c.history ops), hthrough.own, ?_⟩
  · rw [hthrough.unanswered, hother.unanswered, hformat, hunanswered, hreplay, hreplay']
  · rw [hother.own, hformat, hunanswered, hreport, hreport']

/-- A stray takes its token away if it is wanted, and leaves it if it is skipped: of two
courses that send the same and consume the same, one is warned and the other is not. -/
theorem stray_answers :
    let c := start (.fixed ["5*stopped"] true) .mi .empty
    let course (wanted : String) : List Operation :=
      [.send "5-exec-run", .expect wanted (.ofSeconds 1), .send "5-exec-next"]
    ¬ResultsAnswer .mi [] (c.history (course "5*")) ∧
    (c.history (course "5*")).map Deed.unwanted = (c.history (course "6^")).map Deed.unwanted ∧
    (c.performAll (course "5*")).transcript.own = [.sent "5-exec-run", .sent "5-exec-next"] ∧
    (c.performAll (course "6^")).transcript.own =
      [.sent "5-exec-run", .note "warning: token 5 reused while in flight",
        .sent "5-exec-next"] := by
  refine ⟨fun h => ?_, by decide +kernel, by decide +kernel, by decide +kernel⟩
  have hkept := (h [.sent "5-exec-run"] (.matched "5*stopped") [.sent "5-exec-next"]
    (by decide +kernel) 5).mpr (.inr ⟨by decide +kernel, ?_⟩)
  · exact absurd hkept (by decide +kernel)
  · rintro ⟨_, ⟨⟩, hresult⟩
    exact absurd (tokenOfAnswer_eq_some.mpr hresult) (by decide +kernel)

/-! ## Tokens that are sent and tokens that are read

The digits in front of a line are read twice: where its record is made, behind a carriage return
that the line loses, and where its token is taken off the unanswered ones, from the line as it
is. -/

/-- A line that is read as a record has answered the token of the record, if that is a result. -/
theorem tokenOfAnswer_read {line : String} {r : Record} (h : Mi.read line = .ok r) :
    tokenOfAnswer line = if r.kind = .result then r.token else none := by
  have hread := Mi.read_eq_ok.mp h
  have hdigits := Mi.leading_digits line
  show (if (Mi.behind line).head? = some '^' then Mi.tokenOf (Mi.leading line) else none) = _
  by_cases hcaret : (Mi.behind line).head? = some '^'
  · obtain ⟨rest, hrest⟩ := List.head?_eq_some_iff.mp hcaret
    have hclass : RecordKind.result ∈ Mi.classKinds := by decide
    rw [← Mi.leading_behind line, hrest, Mi.dropReturn_digits hdigits,
      Text.dropReturn_cons (by decide), Mi.readLine_classed hdigits hclass rfl] at hread
    obtain ⟨hkind, htoken⟩ := Mi.structured_record hread
    rw [if_pos hcaret, if_pos hkind, htoken]
  · have hother : r.kind ≠ .result := by
      intro hkind
      cases Mi.readLine_shows hread with
      | classed _ hsign hrest hrecord =>
        obtain rfl := (Mi.structured_record hrecord).1.symm.trans hkind
        obtain rfl := Option.some.inj hsign
        rw [Mi.splitDigits_dropReturn] at hrest
        exact hcaret (Mi.head_behind hrest)
      | streamed hstream _ _ _ hrecord =>
        rw [(Mi.streamed_record hrecord).1.symm.trans hkind] at hstream
        exact absurd hstream (by decide)
      | prompt | raw => cases hkind
    rw [if_neg hcaret, if_neg hother]

theorem beginsWith_toString {t : Nat} (ht : t < Nat.pow 2 64) {rest : String}
    (hrest : ∀ c, rest.toList.head? = some c → Text.isDigit c = false) :
    BeginsWith (toString t ++ rest) t := by
  have hdigits : (toString t).toList = Nat.toDigits 10 t := Nat.toList_repr
  refine ⟨Nat.toDigits 10 t, rest.toList, ?_, ⟨Nat.toDigits_ne_nil, fun c hc => ?_, ?_, ht⟩, hrest⟩
  · rw [String.toList_append, hdigits]
  · exact Integer.isDigit_of_mem_toDigits hc
  · exact Integer.ofDigits_toDigits t

theorem unanswered_send {c : Connection} (h : c.closed = false) (text : String) :
    (c.send text).2.unanswered = announce (tokenOfCommand text) c.unanswered := by
  rw [send, if_neg (by rw [h]; exact Bool.false_ne_true)]
  show (react _ _).unanswered = _
  rw [(frame_react _ _).2.1, ← unanswered_launch]
  rfl

/-- Whatever line is read as a record answers `t` exactly if the record is a result with the
token `t`, and then `t` is taken off the unanswered tokens, and no other.  A command with the
decimal digits of `t` in front of what is no digit has the token `t`, and once it is sent `t` is
unanswered.  So what a command adds is what its result takes away. -/
theorem tokens_agree :
    (∀ line r, Mi.read line = .ok r → ∀ t,
      (tokenOfAnswer line = some t ↔ r.kind = .result ∧ r.token = some t) ∧
      ∀ unanswered, t ∈ forget (tokenOfAnswer line) unanswered ↔
        t ∈ unanswered ∧ ¬(r.kind = .result ∧ r.token = some t)) ∧
    ∀ (t : Nat) (rest : String), t < Nat.pow 2 64 →
      (∀ c, rest.toList.head? = some c → Text.isDigit c = false) →
      tokenOfCommand (toString t ++ rest) = some t ∧
      ∀ c : Connection, c.closed = false → t ∈ (c.send (toString t ++ rest)).2.unanswered := by
  refine ⟨fun line r hread t => ?_, fun t rest ht hrest => ?_⟩
  · have hanswer : tokenOfAnswer line = some t ↔ r.kind = .result ∧ r.token = some t := by
      rw [tokenOfAnswer_read hread]
      split
      · rename_i hkind
        rw [and_iff_right hkind]
      · rename_i hkind
        exact ⟨nofun, fun h => absurd h.1 hkind⟩
    exact ⟨hanswer, fun unanswered => by rw [mem_forget, ne_eq, hanswer]⟩
  · have htoken := tokenOfCommand_eq_some.mpr (beginsWith_toString ht hrest)
    refine ⟨htoken, fun c hopen => ?_⟩
    rw [unanswered_send hopen, mem_announce]
    exact .inl htoken

/-- A result with zeros in front of its number and a carriage return behind it. -/
theorem tokens_agree_padded :
    let r : Record := { Record.raw "007^done" with
      token := some 7, kind := .result, className := "done", text := none }
    Mi.read "007^done\r" = .ok r ∧ 7 < Nat.pow 2 64 ∧
      (∀ c, "-exec-run".toList.head? = some c → Text.isDigit c = false) ∧
      tokenOfAnswer "007^done\r" = some 7 ∧
      tokenOfCommand (toString 7 ++ "-exec-run") = some 7 := by
  intro r
  have hread : Mi.read "007^done\r" = .ok r := by decide +kernel
  have hfits : 7 < Nat.pow 2 64 := by decide
  have hrest : ∀ c, "-exec-run".toList.head? = some c → Text.isDigit c = false := by
    intro c hc
    have hminus : '-' = c := Option.some.inj hc
    subst hminus
    decide
  exact ⟨hread, hfits, hrest, (tokens_agree.1 _ r hread 7).1.mpr ⟨rfl, rfl⟩,
    (tokens_agree.2 7 _ hfits hrest).1⟩

end Connection
end CheckScript
