/-
The output of a debugger and the script as two parties.

While a script runs, a pump takes over what the debugger has written, line by line: it writes
the line into the transcript, pushes it into the queue, and ends behind the last line.
Nothing settles which of the two moves next.  Three things do not depend on it: what each
operation comes to, the tokens that it leaves unanswered, and what the side of the script
writes (`schedule_independent`).

What is still to come of a script is a matter of the unanswered tokens, of the lines that are
not consumed yet and of the moves that are left (`prospect`).  No move of the pump changes any
of these (`Stage.Pump.foreseen`), and a move of the script turns the next part of the prospect
into what has been (`Stage.Act.foreseen`).  Only a wait that is given up steps out of it, since
it is the one move that looks at how far the pump has come.
-/
import CheckScript.Proofs.Connection.History
import Mathlib.Logic.Relation

namespace CheckScript

/-- The failure without the time that it took. -/
def Failure.untimed : Failure → Failure
  | outputClosed wanted _ => .outputClosed wanted .zero
  | f => f

namespace Connection

/-! ## Two parties -/

/-- A move of the script.  A command is announced, with a warning if it needs one, before it
is written, which may fail.  An `expect` without a deadline is the end of the program. -/
inductive Move where
  | announce (text : String)
  | write (text : String) (fault : Option FileFault)
  | expect (wanted : String) (timeout : Duration)
  | breakDown
  | close
deriving DecidableEq, Repr

/-- The moves of an operation on a machine where writing fails and the clock stands as told. -/
def Operation.moves (refusal : String → Option FileFault) (now : Duration) :
    Operation → List Move
  | .send text => [.announce text, .write text (refusal text)]
  | .expect wanted timeout =>
    if (now.add timeout).isTellable then [.expect wanted timeout] else [.breakDown]
  | .close => [.close]

/-- What comes of a command that is written. -/
def written : Option FileFault → Except Failure (Option Record)
  | none => .ok none
  | some fault => .error (.system fault)

/-- What an operation has come to, with the record of an `expect`, and the tokens that are
unanswered behind it.  Where the program breaks down there is no result. -/
structure Account where
  result : Option (Except Failure (Option Record))
  unanswered : List Nat

namespace Account

def untimed (a : Account) : Account := { a with result := a.result.map (·.mapError .untimed) }

/-- The operation was an `expect` whose time ran out. -/
def gaveUp (a : Account) : Bool :=
  match a.result with
  | some (.error (.timedOut ..)) => true
  | _ => false

end Account

/-- The two parties in the middle of their work.  `arriving` holds the lines that the pump has
not read yet, `inHand` the one that is in the transcript and not yet in the queue, and
`outputEnded` says that the pump has ended. -/
structure Stage where
  connection : Connection
  inHand : Option String
  moves : List Move
  consumed : List String
  accounts : List Account

namespace Stage

/-- A debugger has just been started that writes `lines` and nothing else. -/
def opening (lines : List String) (refusal : String → Option FileFault) (now : Duration)
    (format : RecordFormat) (transcript : Transcript) (ops : List Operation) : Stage where
  connection :=
    { start ((Debugger.fixed lines true).on (.steady refusal now)) format transcript with
      outputEnded := false }
  inHand := none
  moves := ops.flatMap (Operation.moves refusal now)
  consumed := []
  accounts := []

/-- The lines that nobody has consumed, the next one first. -/
def remaining (s : Stage) : List String :=
  s.connection.queue ++ (s.inHand.toList ++ s.connection.arriving)

/-- The pump moves.  Once the connection is closed it may be stopped between two lines. -/
inductive Pump : Stage → Stage → Prop where
  | record {s : Stage} {line : String} {lines : List String}
      (hopen : s.connection.outputEnded = false) (hfree : s.inHand = none)
      (hlines : s.connection.arriving = line :: lines) :
      Pump s { s with
        connection := { s.connection.log (.received line) with arriving := lines }
        inHand := some line }
  | push {s : Stage} {line : String} (hline : s.inHand = some line) :
      Pump s { s with
        connection := { s.connection with queue := s.connection.queue ++ [line] }
        inHand := none }
  | finish {s : Stage} (hfree : s.inHand = none)
      (hlines : s.connection.arriving = [] ∨ s.connection.closed = true) :
      Pump s { s with connection := { s.connection with outputEnded := true } }

/-- The script moves.  An `expect` takes as many moves as it consumes lines; it waits for the
pump as long as the queue is empty, unless it gives up. -/
inductive Act : Stage → Stage → Prop where
  | announce {s : Stage} {text : String} {moves : List Move}
      (hmoves : s.moves = .announce text :: moves) (hopen : s.connection.closed = false) :
      Act s { s with
        connection := s.connection.launch (tokenOfCommand text)
        moves := moves }
  | write {s : Stage} {text : String} {fault : Option FileFault} {moves : List Move}
      (hmoves : s.moves = .write text fault :: moves) (hopen : s.connection.closed = false) :
      Act s { s with
        connection := s.connection.log (.sent text)
        moves := moves
        accounts := s.accounts ++ [⟨some (written fault), s.connection.unanswered⟩] }
  | silent {s : Stage} {text : String} {moves : List Move}
      (hmoves : s.moves = .announce text :: moves) (hclosed : s.connection.closed = true) :
      Act s { s with moves := moves }
  | refuse {s : Stage} {text : String} {fault : Option FileFault} {moves : List Move}
      (hmoves : s.moves = .write text fault :: moves) (hclosed : s.connection.closed = true) :
      Act s { s with
        moves := moves
        accounts := s.accounts ++ [⟨some (.error .inputClosed), s.connection.unanswered⟩] }
  | skip {s : Stage} {wanted line : String} {timeout : Duration} {moves : List Move}
      {queue : List String} (hmoves : s.moves = .expect wanted timeout :: moves)
      (hqueue : s.connection.queue = line :: queue)
      (hother : Text.startsWith line wanted = false) :
      Act s { s with
        connection := { s.connection with
          queue := queue
          unanswered := forget (tokenOfAnswer line) s.connection.unanswered }
        consumed := s.consumed ++ [line] }
  | take {s : Stage} {wanted line : String} {timeout : Duration} {moves : List Move}
      {queue : List String} {r : Consumed} (hmoves : s.moves = .expect wanted timeout :: moves)
      (hqueue : s.connection.queue = line :: queue)
      (hwanted : Text.startsWith line wanted = true)
      (hread : matched s.connection.format line queue
        (forget (tokenOfAnswer line) s.connection.unanswered) = r) :
      Act s { s with
        connection := { s.connection with queue := r.queue, unanswered := r.unanswered }
        moves := moves
        consumed := s.consumed ++ [line]
        accounts := s.accounts ++ [⟨some (r.result.map some), r.unanswered⟩] }
  | ended {s : Stage} {wanted : String} {timeout : Duration} {moves : List Move}
      (hmoves : s.moves = .expect wanted timeout :: moves) (hqueue : s.connection.queue = [])
      (hended : s.connection.outputEnded = true) (elapsed : Duration) :
      Act s { s with
        moves := moves
        accounts := s.accounts ++
          [⟨some (.error (.outputClosed wanted elapsed)), s.connection.unanswered⟩] }
  | giveUp {s : Stage} {wanted : String} {timeout : Duration} {moves : List Move}
      (hmoves : s.moves = .expect wanted timeout :: moves) (hqueue : s.connection.queue = [])
      (hopen : s.connection.outputEnded = false) :
      Act s { s with
        moves := moves
        accounts := s.accounts ++
          [⟨some (.error (.timedOut wanted timeout)), s.connection.unanswered⟩] }
  | breakDown {s : Stage} {moves : List Move} (hmoves : s.moves = .breakDown :: moves) :
      Act s { s with
        moves := moves
        accounts := s.accounts ++ [⟨none, s.connection.unanswered⟩] }
  | close {s : Stage} {moves : List Move} (hmoves : s.moves = .close :: moves) :
      Act s { s with
        connection := { s.connection with closed := true }
        moves := moves
        accounts := s.accounts ++ [⟨some (.ok none), s.connection.unanswered⟩] }

/-- One of the two parties moves. -/
inductive Step (s t : Stage) : Prop where
  | pump (h : Pump s t)
  | act (h : Act s t)

/-- `t` can come of `s`. -/
abbrev Reaches : Stage → Stage → Prop := Relation.ReflTransGen Step

/-- No `expect` has given up. -/
def InTime (s : Stage) : Prop := ∀ a ∈ s.accounts, a.gaveUp = false

/-! ## Lines in order -/

/-- Every line of the output is in one place, and those that the pump has read are in the
transcript. -/
structure Flows (lines received : List String) (s : Stage) : Prop where
  lines : s.consumed ++ s.remaining = lines
  received : s.connection.transcript.received =
    received ++ (s.consumed ++ (s.connection.queue ++ s.inHand.toList))
  ended : s.connection.outputEnded = true →
    s.inHand = none ∧ (s.connection.arriving = [] ∨ s.connection.closed = true)

theorem flows_opening (lines : List String) (refusal : String → Option FileFault)
    (now : Duration) (format : RecordFormat) (transcript : Transcript) (ops : List Operation) :
    Flows lines transcript.received (opening lines refusal now format transcript ops) where
  lines := rfl
  received := (List.append_nil _).symm
  ended h := nomatch h

/-- An announcement writes at most a warning, and moves no line. -/
theorem Flows.launch {lines received : List String} {s : Stage} {moves : List Move}
    (h : Flows lines received s) (token : Option Nat) :
    Flows lines received
      { s with connection := s.connection.launch token, moves := moves } := by
  have hreceived := (s.connection.own_launch token).2
  obtain ⟨unanswered, transcript, hlaunch⟩ := s.connection.launch_eq token
  rw [hlaunch] at hreceived ⊢
  exact ⟨h.lines, hreceived.trans h.received, h.ended⟩

/-- The first line of the queue is consumed. -/
theorem Flows.consume {lines received queue : List String} {line : String} {s : Stage}
    (h : Flows lines received s) (hqueue : s.connection.queue = line :: queue)
    (unanswered : List Nat) (moves : List Move) (accounts : List Account) :
    Flows lines received
      { s with
        connection := { s.connection with queue := queue, unanswered := unanswered }
        moves := moves
        consumed := s.consumed ++ [line]
        accounts := accounts } where
  lines := by
    rw [← h.lines]
    show (s.consumed ++ [line]) ++ (queue ++ _) = s.consumed ++ (s.connection.queue ++ _)
    rw [hqueue, List.append_assoc]
    rfl
  received := by
    refine h.received.trans ?_
    show _ = received ++ ((s.consumed ++ [line]) ++ (queue ++ _))
    rw [hqueue, List.append_assoc]
    rfl
  ended := h.ended

theorem Flows.pump {lines received : List String} {s t : Stage} (h : Flows lines received s)
    (hpump : Pump s t) : Flows lines received t := by
  cases hpump with
  | @record line rest hopen hfree hlines =>
    refine ⟨?_, ?_, fun hended => ?_⟩
    · rw [← h.lines]
      show s.consumed ++ (s.connection.queue ++ ([line] ++ rest)) = s.consumed ++ (_ ++ (_ ++ _))
      rw [hfree, hlines]
      rfl
    · show (s.connection.transcript.push (.received line)).received = _
      rw [Transcript.received_push, h.received, hfree, List.append_assoc, List.append_assoc,
        List.append_assoc]
      rfl
    · rw [show s.connection.outputEnded = true from hended] at hopen
      cases hopen
  | @push line hline =>
    refine ⟨?_, ?_, fun hended => ?_⟩
    · rw [← h.lines]
      show s.consumed ++ ((s.connection.queue ++ [line]) ++ _) = s.consumed ++ (_ ++ (_ ++ _))
      rw [hline, List.append_assoc]
      rfl
    · refine h.received.trans ?_
      show _ = received ++ (s.consumed ++ ((s.connection.queue ++ [line]) ++ []))
      rw [hline, List.append_nil]
      rfl
    · rw [(h.ended hended).1] at hline
      cases hline
  | finish hfree hlines => exact ⟨h.lines, h.received, fun _ => ⟨hfree, hlines⟩⟩

theorem Flows.act {lines received : List String} {s t : Stage} (h : Flows lines received s)
    (hact : Act s t) : Flows lines received t := by
  cases hact with
  | announce => exact h.launch _
  | write =>
    refine ⟨h.lines, ?_, h.ended⟩
    show (s.connection.transcript.push (.sent _)).received = _
    rw [Transcript.received_push, h.received]
    exact List.append_nil _
  | skip hmoves hqueue hother => exact h.consume hqueue _ _ _
  | take hmoves hqueue hwanted hread =>
    subst hread
    rw [matched_queue]
    exact h.consume hqueue _ _ _
  | silent | refuse | ended | giveUp | breakDown => exact ⟨h.lines, h.received, h.ended⟩
  | close => exact ⟨h.lines, h.received, fun hended => ⟨(h.ended hended).1, .inr rfl⟩⟩

theorem Flows.reaches {lines received : List String} {s t : Stage} (h : Flows lines received s)
    (hrun : Reaches s t) : Flows lines received t := by
  induction hrun with
  | refl => exact h
  | tail _ hstep ih =>
    cases hstep with
    | pump hpump => exact ih.pump hpump
    | act hact => exact ih.act hact

/-- The next line that is consumed stands in the queue already. -/
theorem Step.consumed_prefix {s t : Stage} (h : Step s t) :
    t.consumed <+: s.consumed ++ s.connection.queue := by
  have hsame : s.consumed <+: s.consumed ++ s.connection.queue := List.prefix_append _ _
  have hnext : ∀ {line : String} {queue : List String}, s.connection.queue = line :: queue →
      s.consumed ++ [line] <+: s.consumed ++ s.connection.queue := by
    intro line queue hqueue
    rw [hqueue]
    exact (List.prefix_append_right_inj _).mpr ⟨queue, rfl⟩
  cases h with
  | pump h => cases h <;> exact hsame
  | act h =>
    cases h with
    | skip hmoves hqueue hother => exact hnext hqueue
    | take hmoves hqueue hwanted hread => exact hnext hqueue
    | _ => exact hsame

end Stage

/-! ## What is still to come -/

/-- The entries that the side of the script will write, and what its operations will come
to. -/
structure Prospect where
  own : List Entry
  accounts : List Account

/-- What is still to come of the moves of a script if nobody closes the connection and no wait
is given up. -/
def prospect (format : RecordFormat) (unanswered : List Nat) (lines : List String) :
    List Move → Prospect
  | [] | .close :: _ => ⟨[], []⟩
  | .announce text :: moves =>
    let rest := prospect format (announce (tokenOfCommand text) unanswered) lines moves
    { rest with own := warnings (tokenOfCommand text) unanswered ++ rest.own }
  | .write text fault :: moves =>
    let rest := prospect format unanswered lines moves
    ⟨.sent text :: rest.own, ⟨some (written fault), unanswered⟩ :: rest.accounts⟩
  | .expect wanted _ :: moves =>
    let r := consume format wanted (.outputClosed wanted .zero) unanswered lines
    let rest := prospect format r.unanswered r.queue moves
    { rest with accounts := ⟨some (r.result.map some), r.unanswered⟩ :: rest.accounts }
  | .breakDown :: moves =>
    let rest := prospect format unanswered lines moves
    { rest with accounts := ⟨none, unanswered⟩ :: rest.accounts }

section
variable {format : RecordFormat} {unanswered : List Nat} {wanted line : String}
  {timeout : Duration} {moves : List Move}

theorem prospect_skip (lines : List String) (h : Text.startsWith line wanted = false) :
    prospect format unanswered (line :: lines) (.expect wanted timeout :: moves) =
      prospect format (forget (tokenOfAnswer line) unanswered) lines
        (.expect wanted timeout :: moves) := by
  rw [prospect, prospect, consume, if_neg (by rw [h]; exact Bool.false_ne_true)]

theorem prospect_take {queue : List String} {r : Consumed}
    (hread : matched format line queue (forget (tokenOfAnswer line) unanswered) = r)
    (lines : List String) (h : Text.startsWith line wanted = true) :
    prospect format unanswered (line :: lines) (.expect wanted timeout :: moves) =
      { prospect format r.unanswered lines moves with
        accounts := ⟨some (r.result.map some), r.unanswered⟩ ::
          (prospect format r.unanswered lines moves).accounts } := by
  rw [prospect, consume, if_pos h, matched_behind _ _ queue lines, hread]

end

/-- A record that was read, or the fault in it, has no time in it. -/
theorem untimed_matched (format : RecordFormat) (line : String) (queue : List String)
    (unanswered unanswered' : List Nat) :
    Account.untimed ⟨some ((matched format line queue unanswered).result.map some), unanswered'⟩ =
      ⟨some ((matched format line queue unanswered).result.map some), unanswered'⟩ := by
  rw [matched_result]
  unfold Account.untimed
  cases format.read line <;> rfl

theorem untimed_written (fault : Option FileFault) (unanswered : List Nat) :
    Account.untimed ⟨some (written fault), unanswered⟩ = ⟨some (written fault), unanswered⟩ := by
  cases fault <;> rfl

/-- The next account was the first one still to come. -/
theorem map_untimed_append (accounts : List Account) (a : Account) (rest : List Account) :
    (accounts ++ [a]).map Account.untimed ++ rest =
      accounts.map Account.untimed ++ (a.untimed :: rest) := by
  rw [List.map_append, List.append_assoc]
  rfl

namespace Stage

theorem remaining_cons {s : Stage} {line : String} {queue : List String}
    (h : s.connection.queue = line :: queue) :
    s.remaining = line :: (queue ++ (s.inHand.toList ++ s.connection.arriving)) := by
  rw [remaining, h]
  rfl

/-- Nobody closes the connection. -/
structure Unclosed (s : Stage) : Prop where
  closed : s.connection.closed = false
  moves : .close ∉ s.moves

theorem unclosed_opening (lines : List String) (refusal : String → Option FileFault)
    (now : Duration) (format : RecordFormat) (transcript : Transcript) {ops : List Operation}
    (hops : .close ∉ ops) : Unclosed (opening lines refusal now format transcript ops) where
  closed := rfl
  moves hclose := by
    obtain ⟨op, hop, hmem⟩ := List.mem_flatMap.mp hclose
    cases op with
    | close => exact hops hop
    | send text => simp [Operation.moves] at hmem
    | expect wanted timeout =>
      rw [Operation.moves] at hmem
      split at hmem <;> simp at hmem

/-- What has been and what is still to come, put together. -/
def foreseen (s : Stage) : Prospect :=
  let rest := prospect s.connection.format s.connection.unanswered s.remaining s.moves
  ⟨s.connection.transcript.own ++ rest.own, s.accounts.map Account.untimed ++ rest.accounts⟩

/-- A move takes the first of the moves away, or leaves all of them. -/
theorem Act.moves_suffix {s t : Stage} (h : Act s t) : t.moves <:+ s.moves := by
  have htail : ∀ {m : Move} {moves : List Move}, s.moves = m :: moves → moves <:+ s.moves :=
    fun hmoves => hmoves ▸ List.suffix_cons _ _
  cases h with
  | skip => exact List.suffix_refl _
  | announce h | write h | silent h | refuse h | take h | ended h | giveUp h | breakDown h
  | close h => exact htail h

theorem Unclosed.step {s t : Stage} (h : Unclosed s) (hstep : Step s t) : Unclosed t := by
  cases hstep with
  | pump hpump => cases hpump <;> exact ⟨h.closed, h.moves⟩
  | act hact =>
    refine ⟨?_, fun hclose => h.moves (hact.moves_suffix.subset hclose)⟩
    cases hact with
    | announce =>
      obtain ⟨_, _, hlaunch⟩ := s.connection.launch_eq _
      rw [hlaunch]
      exact h.closed
    | close hmoves => exact absurd (hmoves ▸ List.mem_cons_self) h.moves
    | _ => exact h.closed

/-- What the operations have come to so far stays. -/
theorem Step.accounts_prefix {s t : Stage} (h : Step s t) : s.accounts <+: t.accounts := by
  cases h with
  | pump h => cases h <;> exact List.prefix_refl _
  | act h =>
    cases h with
    | announce | silent | skip => exact List.prefix_refl _
    | _ => exact List.prefix_append _ _

theorem InTime.of_step {s t : Stage} (h : InTime t) (hstep : Step s t) : InTime s :=
  fun a ha => h a (hstep.accounts_prefix.subset ha)

/-- The pump has no part in what the operations come to. -/
theorem Pump.foreseen {s t : Stage} (h : Pump s t) : t.foreseen = s.foreseen := by
  have hremaining : t.remaining = s.remaining := by
    unfold remaining
    cases h with
    | record hopen hfree hlines => rw [hfree, hlines]; rfl
    | push hline => rw [hline]; exact List.append_assoc _ _ _
    | finish => rfl
  have hown : t.connection.transcript.own = s.connection.transcript.own := by
    cases h with
    | record => exact Transcript.own_push_received _ _
    | push | finish => rfl
  unfold Stage.foreseen
  rw [hremaining, hown]
  cases h <;> rfl

/-- A move of the script turns the next part of its prospect into what has been. -/
theorem Act.foreseen {lines received : List String} {s t : Stage} (h : Act s t)
    (hflows : Flows lines received s) (hopen : s.Unclosed) (htime : InTime t) :
    t.foreseen = s.foreseen := by
  have hnotClosed : ¬s.connection.closed = true := by
    rw [hopen.closed]
    exact Bool.false_ne_true
  unfold Stage.foreseen
  cases h with
  | @announce text moves hmoves _ =>
    have hown := (s.connection.own_launch (tokenOfCommand text)).1
    have hunanswered := s.connection.unanswered_launch (tokenOfCommand text)
    obtain ⟨unanswered, transcript, hlaunch⟩ := s.connection.launch_eq (tokenOfCommand text)
    rw [hlaunch] at hown hunanswered ⊢
    simp only at hown hunanswered ⊢
    rw [hmoves, prospect, hown, hunanswered, List.append_assoc]
    rfl
  | @write text fault moves hmoves _ =>
    simp only
    rw [hmoves, prospect, map_untimed_append, untimed_written]
    show Prospect.mk ((s.connection.transcript.push (.sent text)).own ++ _) _ = _
    rw [Transcript.own_push _ rfl, List.append_assoc]
    rfl
  | skip hmoves hqueue hother =>
    rw [remaining_cons hqueue, hmoves, prospect_skip _ hother]
    rfl
  | take hmoves hqueue hwanted hread =>
    simp only
    rw [map_untimed_append, remaining_cons hqueue, hmoves, prospect_take hread _ hwanted]
    subst hread
    rw [untimed_matched, remaining, matched_queue]
  | @ended wanted timeout moves hmoves hqueue hended elapsed =>
    -- an empty queue behind a pump that has ended means that no line is left at all
    obtain ⟨hfree, hlines⟩ := hflows.ended hended
    have hremaining : ∀ moves accounts,
        remaining { s with moves := moves, accounts := accounts } = [] := by
      intro _ _
      rw [remaining, hqueue, hfree, hlines.resolve_right hnotClosed]
      rfl
    simp only
    rw [map_untimed_append, hmoves, prospect, hremaining, hremaining s.moves s.accounts]
    rfl
  | giveUp hmoves hqueue hended =>
    have hgaveUp := htime _ (List.mem_append_right _ (List.mem_singleton_self _))
    cases hgaveUp
  | breakDown hmoves =>
    simp only
    rw [map_untimed_append, hmoves, prospect]
    rfl
  | close hmoves => exact absurd (hmoves ▸ List.mem_cons_self) hopen.moves
  | silent _ hclosed | refuse _ hclosed => exact absurd hclosed hnotClosed

/-- Along a run in which no wait is given up, nothing of what is foreseen changes. -/
theorem foreseen_reaches {lines received : List String} {s t : Stage}
    (hflows : Flows lines received s) (hopen : s.Unclosed) (hrun : Reaches s t)
    (htime : InTime t) : t.foreseen = s.foreseen := by
  -- being in time comes down from the end of the run, being unclosed up from its beginning
  have hcourse : t.Unclosed ∧ (InTime t → t.foreseen = s.foreseen) := by
    clear htime
    induction hrun with
    | refl => exact ⟨hopen, fun _ => rfl⟩
    | @tail u v hrun hstep ih =>
      refine ⟨ih.1.step hstep, fun htime => ?_⟩
      rw [← ih.2 (htime.of_step hstep)]
      cases hstep with
      | pump hpump => exact hpump.foreseen
      | act hact => exact hact.foreseen (hflows.reaches hrun) ih.1 htime
  exact hcourse.2 htime

/-! ## Runs to the end -/

/-- A bound on the moves that are left, of both parties, if nobody gives up. -/
def size (s : Stage) : Nat :=
  s.moves.length + s.connection.queue.length + 2 * s.inHand.toList.length +
    3 * s.connection.arriving.length + (!s.connection.outputEnded).toNat

theorem InTime.account {s : Stage} {a : Account} (h : InTime s) (ha : a.gaveUp = false)
    (connection : Connection) (moves : List Move) (consumed : List String) :
    InTime { s with
      connection := connection, moves := moves, consumed := consumed
      accounts := s.accounts ++ [a] } := by
  intro b hb
  rcases List.mem_append.mp hb with hb | hb
  · exact h b hb
  · exact List.mem_singleton.mp hb ▸ ha

/-- A pump that has not ended can move. -/
theorem exists_pump {s : Stage} (h : s.connection.outputEnded = false) :
    ∃ t, Pump s t ∧ t.accounts = s.accounts ∧ t.size < s.size := by
  cases hhand : s.inHand with
  | some line =>
    refine ⟨_, .push hhand, rfl, ?_⟩
    simp only [size, hhand, List.length_append, Option.toList, List.length_cons, List.length_nil]
    omega
  | none =>
    cases hlines : s.connection.arriving with
    | nil =>
      refine ⟨_, .finish hhand (.inl hlines), rfl, ?_⟩
      simp only [size, h, Bool.not_true, Bool.not_false, Bool.toNat_true, Bool.toNat_false]
      omega
    | cons line lines =>
      refine ⟨_, .record h hhand hlines, rfl, ?_⟩
      simp only [size, log, hhand, hlines, Option.toList, List.length_cons, List.length_nil]
      omega

/-- A move of the script that does not touch the pump leaves less to do. -/
theorem size_lt {s : Stage} {connection : Connection} {m : Move} {moves : List Move}
    {consumed : List String} {accounts : List Account} (hs : s.moves = m :: moves)
    (hqueue : connection.queue.length ≤ s.connection.queue.length)
    (harriving : connection.arriving = s.connection.arriving)
    (hended : connection.outputEnded = s.connection.outputEnded) :
    size ⟨connection, s.inHand, moves, consumed, accounts⟩ < s.size := by
  simp only [size, harriving, hended, hs, List.length_cons]
  omega

/-- A wait goes on to the next line or to the end of the output.  Where there is neither yet, the
pump has to move. -/
theorem exists_wait {s : Stage} (htime : InTime s) {wanted : String} {timeout : Duration}
    {moves : List Move} (hs : s.moves = .expect wanted timeout :: moves) :
    ∃ t, Step s t ∧ InTime t ∧ t.size < s.size := by
  cases hqueue : s.connection.queue with
  | cons line queue =>
    have hshorter : queue.length < s.connection.queue.length := by
      rw [hqueue]
      exact Nat.lt_succ_self _
    cases hwanted : Text.startsWith line wanted with
    | true =>
      refine ⟨_, .act (.take hs hqueue hwanted rfl), htime.account ?_ _ _ _, ?_⟩
      · rw [matched_result]
        cases s.connection.format.read line <;> rfl
      · rw [matched_queue]
        exact size_lt hs (Nat.le_of_lt hshorter) rfl rfl
    | false =>
      refine ⟨_, .act (.skip hs hqueue hwanted), htime, ?_⟩
      simp only [size]
      omega
  | nil =>
    cases hended : s.connection.outputEnded with
    | true =>
      exact ⟨_, .act (.ended hs hqueue hended .zero), htime.account rfl _ _ _,
        size_lt hs (Nat.le_refl _) rfl rfl⟩
    | false =>
      obtain ⟨t, hpump, haccounts, hsize⟩ := exists_pump hended
      refine ⟨t, .pump hpump, ?_, hsize⟩
      unfold InTime
      rwa [haccounts]

/-- While a move of the script is left, one of the parties can move and nobody has to give
up. -/
theorem exists_step {s : Stage} (htime : InTime s) (hmoves : s.moves ≠ []) :
    ∃ t, Step s t ∧ InTime t ∧ t.size < s.size := by
  obtain ⟨m, moves, hs⟩ := List.exists_cons_of_ne_nil hmoves
  cases m with
  | announce text =>
    cases hclosed : s.connection.closed with
    | true => exact ⟨_, .act (.silent hs hclosed), htime, size_lt hs (Nat.le_refl _) rfl rfl⟩
    | false =>
      refine ⟨_, .act (.announce hs hclosed), htime, ?_⟩
      obtain ⟨_, _, hlaunch⟩ := s.connection.launch_eq (tokenOfCommand text)
      rw [hlaunch]
      exact size_lt hs (Nat.le_refl _) rfl rfl
  | write text fault =>
    cases hclosed : s.connection.closed with
    | true =>
      exact ⟨_, .act (.refuse hs hclosed), htime.account rfl _ _ _,
        size_lt hs (Nat.le_refl _) rfl rfl⟩
    | false =>
      exact ⟨_, .act (.write hs hclosed), htime.account (by cases fault <;> rfl) _ _ _,
        size_lt hs (Nat.le_refl _) rfl rfl⟩
  | breakDown =>
    exact ⟨_, .act (.breakDown hs), htime.account rfl _ _ _, size_lt hs (Nat.le_refl _) rfl rfl⟩
  | close =>
    exact ⟨_, .act (.close hs), htime.account rfl _ _ _, size_lt hs (Nat.le_refl _) rfl rfl⟩
  | expect wanted timeout => exact exists_wait htime hs

/-- A run in which nobody has given up can go on like this to the end of the script. -/
theorem exists_finish {s : Stage} (htime : InTime s) :
    ∃ t, Reaches s t ∧ InTime t ∧ t.moves = [] := by
  by_cases hmoves : s.moves = []
  · exact ⟨s, .refl, htime, hmoves⟩
  · obtain ⟨t, hstep, htime', hsize⟩ := exists_step htime hmoves
    obtain ⟨u, hrun, hu⟩ := exists_finish htime'
    exact ⟨u, .head hstep hrun, hu⟩
termination_by s.size

end Stage

/-! ## One operation after the other -/

/-- What an operation comes to. -/
def outcome (c : Connection) : Operation → Option (Except Failure (Option Record))
  | .send text => some ((c.send text).1.map fun _ => none)
  | .expect wanted timeout => (c.expect wanted timeout).1.map (·.map some)
  | .close => some (.ok none)

/-- What the operations come to if each of them finds all of the output there. -/
def accounts (c : Connection) : List Operation → List Account
  | [] => []
  | op :: ops => ⟨c.outcome op, (c.perform op).unanswered⟩ :: (c.perform op).accounts ops

/-- What the next operation does, with what comes of it, is the next part of a prospect. -/
def Foretold (c : Connection) (op : Operation) (made moves : List Move) : Prop :=
  let d := c.perform op
  let rest := prospect d.format d.unanswered d.pending moves
  let whole := prospect c.format c.unanswered c.pending (made ++ moves)
  d.transcript.own ++ rest.own = c.transcript.own ++ whole.own ∧
    ⟨c.outcome op, d.unanswered⟩ :: rest.accounts = whole.accounts

section
variable {c : Connection} {refusal : String → Option FileFault} {now : Duration}

theorem foretold_send (h : Settled true c) (hopen : c.closed = false)
    (hplatform : c.debugger.platform = .steady refusal now) (text : String) (moves : List Move) :
    c.Foretold (.send text) [.announce text, .write text (refusal text)] moves := by
  unfold Foretold
  intro d rest whole
  have hsent : ((c.send text).1.map fun _ => none) = written (refusal text) := by
    have hwritten : (c.send text).1 = (c.write text).1 := by
      rw [send, if_neg (by rw [hopen]; exact Bool.false_ne_true)]
    rw [hwritten, write, hplatform]
    show Except.map _ (match refusal text with | none => _ | some fault => _ :
      Except Failure Unit × Event).1 = _
    cases refusal text <;> rfl
  have hthrough := through_send c text
  rw [deeds, if_neg (by rw [hopen]; exact Bool.false_ne_true)] at hthrough
  obtain ⟨hleave, hreport, -, -⟩ := c.attempt_written text
  have hunanswered : d.unanswered = announce (tokenOfCommand text) c.unanswered :=
    hthrough.unanswered.trans (hleave _ _)
  have hrest : rest = prospect c.format (announce (tokenOfCommand text) c.unanswered) c.pending
      moves := by
    show prospect (c.send text).2.format d.unanswered (c.send text).2.pending moves = _
    rw [hthrough.format, hunanswered, h.send_pending]
  have hwhole : whole = ⟨warnings (tokenOfCommand text) c.unanswered ++ .sent text :: rest.own,
      ⟨some (written (refusal text)), d.unanswered⟩ :: rest.accounts⟩ := by
    rw [hrest, hunanswered]
    rfl
  rw [hwhole]
  refine ⟨?_, ?_⟩
  · show (c.send text).2.transcript.own ++ _ = _
    rw [hthrough.own, hreport, List.append_assoc, List.append_assoc]
    rfl
  · rw [outcome, hsent]

/-- On a machine where the clock stands no wait takes time. -/
theorem waited_steady (hplatform : c.debugger.platform = .steady refusal now) :
    c.waited = .zero := by
  rw [waited, Connection.now, hplatform]
  exact congrArg Duration.mk (Nat.sub_self _)

theorem foretold_expect (h : Settled true c)
    (hplatform : c.debugger.platform = .steady refusal now) (wanted : String) (timeout : Duration)
    (moves : List Move) :
    c.Foretold (.expect wanted timeout) ((Operation.expect wanted timeout).moves refusal now)
      moves := by
  have htime : c.hasDeadline timeout = (now.add timeout).isTellable := by
    rw [hasDeadline, Connection.now, hplatform]
    rfl
  unfold Foretold
  rw [Operation.moves, ← htime, perform, outcome]
  cases hdeadline : c.hasDeadline timeout with
  | false =>
    rw [expect_of_not_deadline hdeadline]
    exact ⟨rfl, rfl⟩
  | true =>
    rw [expect_of_deadline hdeadline]
    have hmissing : c.missing wanted timeout c.waited = .outputClosed wanted .zero := by
      rw [waited_steady hplatform]
      exact if_pos h.outputEnded_eq
    obtain ⟨hresult, hunanswered, hpending, hown⟩ := h.await_eq wanted timeout
    have hformat : (c.await wanted timeout).2.format = c.format := (c.setting_react .wait).2
    rw [hmissing] at hresult hunanswered hpending
    simp only [hresult, hunanswered, hpending, hown, hformat]
    exact ⟨rfl, rfl⟩

/-- The next part of a prospect is what the next operation does. -/
theorem prospect_operation (h : Settled true c) (hopen : c.closed = false)
    (hplatform : c.debugger.platform = .steady refusal now) {op : Operation} (hop : op ≠ .close)
    (moves : List Move) : c.Foretold op (op.moves refusal now) moves := by
  cases op with
  | close => exact absurd rfl hop
  | send text => exact foretold_send h hopen hplatform text moves
  | expect wanted timeout => exact foretold_expect h hplatform wanted timeout moves

/-- The prospect of a script is what becomes of it. -/
theorem prospect_moves {ops : List Operation} (h : Settled true c) (hopen : c.closed = false)
    (hplatform : c.debugger.platform = .steady refusal now) (hops : .close ∉ ops) :
    let rest := prospect c.format c.unanswered c.pending
      (ops.flatMap (Operation.moves refusal now))
    (c.performAll ops).transcript.own = c.transcript.own ++ rest.own ∧
      c.accounts ops = rest.accounts := by
  induction ops generalizing c with
  | nil => exact ⟨(List.append_nil _).symm, rfl⟩
  | cons op ops ih =>
    rw [List.mem_cons, not_or] at hops
    have hstays : (c.perform op).closed = false := by
      rw [closed_perform, hopen, decide_eq_false (Ne.symm hops.1)]
      rfl
    have hsame : (c.perform op).debugger.platform = .steady refusal now := by
      rw [(c.setting_perform op).1, hplatform]
    obtain ⟨hown, haccounts⟩ := ih (h.perform op) hstays hsame hops.2
    obtain ⟨hown', haccounts'⟩ := prospect_operation h hopen hplatform (Ne.symm hops.1)
      (ops.flatMap (Operation.moves refusal now))
    rw [performAll_cons, accounts, hown, haccounts]
    exact ⟨hown', haccounts'⟩

end

/-- A script and a pump that share a queue.  However the two take turns, what has been pumped
is what the output begins with, and nothing is consumed before it stands in the transcript.
A script without `close` can always come to its end with no wait given up, and all such runs
come to the same: the same records and failures (their times apart), the same tokens behind
each operation, and the same entries besides those of the pump.  It is what comes of
performing the operations one after the other when all of the output is there, and a run
that is still under way has come to the beginning of it.  The machine has no part in the turns:
which writing fails, and which wait has no deadline, is the same in all runs. -/
theorem schedule_independent (lines : List String) (refusal : String → Option FileFault)
    (now : Duration) (format : RecordFormat) (transcript : Transcript) (ops : List Operation) :
    let opening := Stage.opening lines refusal now format transcript ops
    let fresh := start ((Debugger.fixed lines true).on (.steady refusal now)) format transcript
    (∀ s, Stage.Reaches opening s → ∃ pumped, pumped <+: lines ∧
      s.connection.transcript.received = transcript.received ++ pumped ∧
      s.consumed <+: pumped ∧ ∀ t, Stage.Step s t → t.consumed <+: pumped) ∧
    (.close ∉ ops →
      (∀ s, Stage.Reaches opening s → s.InTime →
        ∃ t, Stage.Reaches s t ∧ t.InTime ∧ t.moves = []) ∧
      (∀ s t, Stage.Reaches opening s → Stage.Reaches opening t → s.InTime → t.InTime →
        s.moves = [] → t.moves = [] →
        s.accounts.map Account.untimed = t.accounts.map Account.untimed ∧
          s.connection.transcript.own = t.connection.transcript.own) ∧
      ∀ s, Stage.Reaches opening s → s.InTime →
        s.accounts.map Account.untimed <+: fresh.accounts ops ∧
        s.connection.transcript.own <+: (fresh.performAll ops).transcript.own ∧
        (s.moves = [] → s.accounts.map Account.untimed = fresh.accounts ops ∧
          s.connection.transcript.own = (fresh.performAll ops).transcript.own)) := by
  intro opening fresh
  have hflows : Stage.Flows lines transcript.received opening :=
    Stage.flows_opening lines refusal now format transcript ops
  refine ⟨fun s hs => ?_, fun hops => ?_⟩
  · have hs := hflows.reaches hs
    refine ⟨s.consumed ++ (s.connection.queue ++ s.inHand.toList), ?_, hs.received,
      List.prefix_append _ _, fun t hstep => hstep.consumed_prefix.trans ?_⟩
    · rw [← hs.lines, Stage.remaining, ← List.append_assoc s.connection.queue]
      exact (List.prefix_append_right_inj _).mpr (List.prefix_append _ _)
    · rw [← List.append_assoc]
      exact List.prefix_append _ _
  · have hunclosed : opening.Unclosed :=
      Stage.unclosed_opening lines refusal now format transcript hops
    obtain ⟨hown, haccounts⟩ :=
      prospect_moves (settled_start lines true (.steady refusal now) format transcript) rfl rfl hops
    have hforeseen : ∀ s, Stage.Reaches opening s → s.InTime →
        s.foreseen = ⟨(fresh.performAll ops).transcript.own, fresh.accounts ops⟩ := by
      intro s hs htime
      rw [Stage.foreseen_reaches hflows hunclosed hs htime, hown, haccounts]
      rfl
    have hend : ∀ s : Stage, s.moves = [] → s.foreseen =
        ⟨s.connection.transcript.own, s.accounts.map Account.untimed⟩ := by
      intro s hmoves
      rw [Stage.foreseen, hmoves, prospect, List.append_nil, List.append_nil]
    refine ⟨fun s _ htime => Stage.exists_finish htime, ?_, fun s hs htime => ?_⟩
    · intro s t hs ht htimes htimet hends hendt
      have hsame := (hforeseen s hs htimes).trans (hforeseen t ht htimet).symm
      rw [hend s hends, hend t hendt] at hsame
      exact (Prospect.mk.inj hsame).symm
    · have hwhole := hforeseen s hs htime
      obtain ⟨howns, haccountss⟩ := Prospect.mk.inj hwhole
      refine ⟨⟨_, haccountss⟩, ⟨_, howns⟩, fun hmoves => ?_⟩
      rw [hend s hmoves] at hwhole
      exact (Prospect.mk.inj hwhole).symm

end Connection
end CheckScript
