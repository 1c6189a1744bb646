/-
What a line asks of the mock debugger, and what it answers.

`Answers` lists the ways in which a line is answered, each with the state behind it and with the
records that the answer says, and `Overflows` the two commands that the mock can break down over.
Every line is answered in one of these ways, and what is written then is read as the records given
there, or it holds such a command (`answer_answers`).
-/
import CheckScript.Proofs.Debugger.Wire
import CheckScript.Proofs.Text.Lines
import CheckScript.Proofs.Text.Runs
import Mathlib.Data.List.TakeWhile

namespace CheckScript
namespace Mock

/-! ## What a line asks -/

/-- A line without blanks around it, as the digits at its start and what follows them. -/
structure Parts (cs digits rest : List Char) : Prop where
  join : cs = digits ++ rest
  all_digits : ∀ c ∈ digits, Text.isDigit c = true
  rest_head : ∀ c, rest.head? = some c → Text.isDigit c = false

/-- A dash and the name of a command, and its arguments behind the first space. -/
inductive Calls : List Char → String → List Char → Prop where
  | bare {name : List Char} (h : ' ' ∉ name) : Calls ('-' :: name) (String.ofList name) []
  | withArgs {name tail : List Char} (h : ' ' ∉ name) :
      Calls ('-' :: (name ++ ' ' :: tail)) (String.ofList name) (Text.trimChars tail)

theorem parts_split (cs : List Char) :
    Parts cs (cs.takeWhile Text.isDigit) (cs.dropWhile Text.isDigit) :=
  ⟨(Mi.splitDigits_join cs).symm, Mi.splitDigits_digits cs, Mi.splitDigits_rest cs⟩

theorem Parts.unique {cs digits rest : List Char} (h : Parts cs digits rest) :
    digits = cs.takeWhile Text.isDigit ∧ rest = cs.dropWhile Text.isDigit := by
  have hsplit := Mi.splitDigits_append h.all_digits h.rest_head
  rw [← h.join] at hsplit
  exact ⟨(congrArg Prod.fst hsplit).symm, (congrArg Prod.snd hsplit).symm⟩

theorem takeWhile_append_sign {sign : Char} {cs : List Char} (h : sign ∉ cs) (rest : List Char) :
    (cs ++ sign :: rest).takeWhile (· != sign) = cs := by
  have hall : ∀ c ∈ cs, (c != sign) = true := fun c hc => bne_iff_ne.mpr fun heq => h (heq ▸ hc)
  exact Text.takeWhile_run hall (Text.ends_cons (bne_self_eq_false sign))

theorem dropWhile_append_sign {sign : Char} {cs : List Char} (h : sign ∉ cs) (rest : List Char) :
    (cs ++ sign :: rest).dropWhile (· != sign) = sign :: rest := by
  have hall : ∀ c ∈ cs, (c != sign) = true := fun c hc => bne_iff_ne.mpr fun heq => h (heq ▸ hc)
  exact Text.dropWhile_run hall (Text.ends_cons (bne_self_eq_false sign))

/-- A text is without a sign, or it is cut in two where the sign stands first. -/
theorem sign_cases (sign : Char) (cs : List Char) :
    (sign ∉ cs ∧ cs.takeWhile (· != sign) = cs ∧ cs.dropWhile (· != sign) = []) ∨
      ∃ front rest, sign ∉ front ∧ cs = front ++ sign :: rest := by
  by_cases h : sign ∈ cs
  · obtain ⟨front, rest, hcs, hfront⟩ := List.eq_append_cons_of_mem h
    exact .inr ⟨front, rest, hfront, hcs⟩
  · have hall : ∀ c ∈ cs, (c != sign) = true := fun c hc => bne_iff_ne.mpr fun heq => h (heq ▸ hc)
    exact .inl ⟨h, List.takeWhile_eq_self_iff.mpr hall, List.dropWhile_eq_nil_iff.mpr hall⟩

theorem calls_split (cs : List Char) :
    Calls ('-' :: cs) (String.ofList (cs.takeWhile (· != ' ')))
      (Text.trimChars ((cs.dropWhile (· != ' ')).drop 1)) := by
  rcases sign_cases ' ' cs with ⟨hname, htake, hdrop⟩ | ⟨name, tail, hname, rfl⟩
  · rw [htake, hdrop]
    exact .bare hname
  · rw [takeWhile_append_sign hname, dropWhile_append_sign hname]
    exact .withArgs hname

theorem Calls.unique {cs : List Char} {name : String} {args : List Char}
    (h : Calls ('-' :: cs) name args) :
    name = String.ofList (cs.takeWhile (· != ' ')) ∧
      args = Text.trimChars ((cs.dropWhile (· != ' ')).drop 1) := by
  cases h with
  | bare hname =>
    rcases sign_cases ' ' cs with ⟨-, htake, hdrop⟩ | ⟨front, rest, -, hcs⟩
    · rw [htake, hdrop]
      exact ⟨rfl, rfl⟩
    · rw [hcs] at hname
      exact absurd (List.mem_append_right front List.mem_cons_self) hname
  | withArgs hname =>
    rw [takeWhile_append_sign hname, dropWhile_append_sign hname]
    exact ⟨rfl, rfl⟩

/-! ## What is answered -/

def commandNames : List String :=
  ["break-insert", "break-list", "exec-run", "exec-continue", "stack-info-frame", "echo",
    "gdb-exit"]

/-- What is said when a run goes on at the line `first`, and the state behind it. -/
inductive Stops (first : Nat) (s : State) : State → Record → Prop where
  | hit {b : Breakpoint} (h : s.breakpoints.find? (fun b => first ≤ b.line) = some b) :
      Stops first s { s with stoppedAt := some b.line }
        (execRecord "stopped"
          [("reason", .const "breakpoint-hit"), ("disp", .const "keep"),
            ("bkptno", .const (toString b.number)),
            ("frame", .tuple [("func", .const "main"), ("file", .const s.file),
              ("line", .const (toString b.line))]),
            ("thread-id", .const "1")])
  | ended (h : s.breakpoints.find? (fun b => first ≤ b.line) = none) :
      Stops first s { s with stoppedAt := none }
        (execRecord "stopped" [("reason", .const "exited-normally")])

def breakpointField (b : Breakpoint) : String × RecordValue :=
  ("bkpt", .tuple [("number", .const (toString b.number)), ("line", .const (toString b.line))])

/-- What is said when a run is started, with `stop` for its end. -/
def runRecords (digits : List Char) (stop : Record) : List Record :=
  [resultRecord digits "running" [], execRecord "running" [("thread-id", .const "all")], stop]

/-- The commands that need a sum which is no word, by their names. -/
inductive Overflows (args : List Char) (s : State) : String → Prop where
  | number {file : List Char} {line : Nat} (h : location? args = some (file, line))
      (hover : ¬s.inserted + 1 < Nat.pow 2 32) : Overflows args s "break-insert"
  | place {line : Nat} (h : s.stoppedAt = some line) (hover : ¬line + 1 < Nat.pow 2 32) :
      Overflows args s "exec-continue"

/-- The ways in which a command is carried out, by its name. -/
inductive Carries (digits args : List Char) (s : State) :
    String → State → List Record → Prop where
  | misplaced (h : location? args = none) :
      Carries digits args s "break-insert" s [errorRecord digits "Bad breakpoint location"]
  | inserted {file : List Char} {line : Nat} (h : location? args = some (file, line))
      (hfits : s.inserted + 1 < Nat.pow 2 32) :
      Carries digits args s "break-insert"
        { s with inserted := s.inserted + 1,
                 breakpoints := place ⟨line, s.inserted + 1⟩ s.breakpoints,
                 file := String.ofList file }
        [resultRecord digits "done"
          [("bkpt", .tuple [("number", .const (toString (s.inserted + 1))),
            ("type", .const "breakpoint"), ("enabled", .const "y"),
            ("file", .const (String.ofList file)), ("line", .const (toString line))])]]
  | listed :
      Carries digits args s "break-list" s
        [resultRecord digits "done"
          [("BreakpointTable", .tuple [("nr_rows", .const (toString s.breakpoints.length)),
            ("body", .list ((s.breakpoints.map breakpointField).map fun f => .tuple [f]))])]]
  | ran {s' : State} {stop : Record} (h : Stops 0 { s with stoppedAt := none } s' stop) :
      Carries digits args s "exec-run" s' (runRecords digits stop)
  | notRunning (h : s.stoppedAt = none) :
      Carries digits args s "exec-continue" s
        [errorRecord digits "The program is not being run."]
  | resumed {line : Nat} {s' : State} {stop : Record} (h : s.stoppedAt = some line)
      (hfits : line + 1 < Nat.pow 2 32) (hstop : Stops (line + 1) s s' stop) :
      Carries digits args s "exec-continue" s' (runRecords digits stop)
  | noStack (h : s.stoppedAt = none) :
      Carries digits args s "stack-info-frame" s [errorRecord digits "No stack."]
  | framed {line : Nat} (h : s.stoppedAt = some line) :
      Carries digits args s "stack-info-frame" s
        [resultRecord digits "done"
          [("frame", .tuple [("level", .const "0"), ("file", .const s.file),
            ("line", .const (toString line))])]]
  | echoed :
      Carries digits args s "echo" s
        [.stream "" .console (String.ofList (args ++ ['\n'])), resultRecord digits "done" []]
  | exited :
      Carries digits args s "gdb-exit" { s with status := .exited } [resultRecord digits "exit" []]
  | unknown {name : String} (h : name ∉ commandNames) :
      Carries digits args s name s [errorRecord digits ("Undefined MI command: " ++ name)]

/-- The ways in which a line is answered.  Blanks around it are not looked at. -/
inductive Answers (cs : List Char) (s : State) : State → List Record → Prop where
  | ping (h : cs = "ping".toList) : Answers cs s s [.raw "pong"]
  | stray {digits rest : List Char} (hping : cs ≠ "ping".toList) (hparts : Parts cs digits rest)
      (hdash : rest.head? ≠ some '-') :
      Answers cs s s
        [errorRecord digits ("Undefined command: \"" ++ String.ofList rest ++ "\"")]
  | command {digits rest args : List Char} {name : String} {s' : State} {rs : List Record}
      (hparts : Parts cs digits rest) (hcalls : Calls rest name args)
      (h : Carries digits args s name s' rs) : Answers cs s s' rs

/-! ## What is written is what is answered -/

theorem next?_cases (n : Nat) :
    n + 1 < Nat.pow 2 32 ∧ next? n = some (n + 1) ∨ ¬n + 1 < Nat.pow 2 32 ∧ next? n = none := by
  by_cases h : n + 1 < Nat.pow 2 32
  · exact .inl ⟨h, if_pos h⟩
  · exact .inr ⟨h, if_neg h⟩

/-- A reply carries a command out and is read so, or there is none for want of a sum. -/
def Carried (digits args : List Char) (s : State) (name : String) :
    Option (State × List String) → Prop
  | some (s', written) => ∃ rs, Carries digits args s name s' rs ∧ List.Forall₂ Reads written rs
  | none => Overflows args s name

/-- The frame of a stop, and that of the answer to a question for it. -/
theorem frame_text {key value file : String} (line : Nat) (hkey : Mi.IsName key.toList)
    (hvalue : isPlain value.toList = true) :
    Mi.ValueText
      (.tuple [(key, .const value), ("file", .const file), ("line", .const (toString line))])
      (tuple [field key value, field "file" (escape file.toList),
        field "line" (toString line)]).toList := by
  have hfields : List.Forall₂ Writes
      [(key, .const value), ("file", .const file), ("line", .const (toString line))]
      [field key value, field "file" (escape file.toList), field "line" (toString line)] :=
    .cons (writes_plain hkey hvalue)
      (.cons (writes_file (by decide) file) (.cons (writes_number (by decide) line) .nil))
  exact tuple_text hfields (List.cons_ne_nil _ _)

theorem stopFrom_stops (first : Nat) (s : State) :
    ∃ stop, Stops first s (stopFrom first s).1 stop ∧ Reads (stopFrom first s).2 stop := by
  unfold stopFrom
  split
  · rename_i h
    refine ⟨_, .ended h, exec_reads (by decide) (.cons (writes_plain (by decide) (by decide)) .nil)
      ?_⟩
    simp only [String.toList_append, List.flatMap_cons, List.flatMap_nil, List.append_nil]
    rfl
  · rename_i b h
    have hname : Mi.IsName "frame".toList := by decide
    have hlabel : "frame=".toList = "frame".toList ++ ['='] := by decide
    have hfields : List.Forall₂ Writes
        [("reason", .const "breakpoint-hit"), ("disp", .const "keep"),
          ("bkptno", .const (toString b.number)),
          ("frame", .tuple [("func", .const "main"), ("file", .const s.file),
            ("line", .const (toString b.line))]),
          ("thread-id", .const "1")]
        [field "reason" "breakpoint-hit", field "disp" "keep",
          field "bkptno" (toString b.number),
          "frame=" ++ tuple [field "func" "main", field "file" (escape s.file.toList),
            field "line" (toString b.line)],
          field "thread-id" "1"] :=
      .cons (writes_plain (by decide) (by decide)) (.cons (writes_plain (by decide) (by decide))
        (.cons (writes_number (by decide) b.number)
          (.cons (writes_named hname hlabel (frame_text b.line (by decide) (by decide)))
            (.cons (writes_plain (by decide) (by decide)) .nil))))
    exact ⟨_, .hit h, exec_reads (by decide) hfields (Text.joinWith_toList _ _)⟩

theorem run_reads {digits : List Char} (hdigits : ∀ c ∈ digits, Text.isDigit c = true)
    (first : Nat) (s : State) :
    ∃ stop, Stops first s (run (String.ofList digits) first s).1 stop ∧
      List.Forall₂ Reads (run (String.ofList digits) first s).2 (runRecords digits stop) := by
  obtain ⟨stop, hstops, hreads⟩ := stopFrom_stops first s
  refine ⟨stop, hstops, .cons (bare_reads hdigits (by decide) ?_) (.cons ?_ (.cons hreads .nil))⟩
  · rw [String.toList_append, String.toList_ofList]
    rfl
  · refine exec_reads (by decide) (.cons (writes_plain (by decide) (by decide)) .nil) ?_
    simp only [String.toList_append, List.flatMap_cons, List.flatMap_nil, List.append_nil]
    rfl

theorem echo_reads (args : List Char) :
    Reads ("~\"" ++ escape args ++ "\\n\"")
      (.stream "" .console (String.ofList (args ++ ['\n']))) := by
  have hinner : Mi.Quoted (args ++ ['\n']) ((escape args).toList ++ ['\\', 'n']) :=
    (escape_quoted args).append (.escape .newline .nil)
  have hkind : RecordKind.console ∈ [RecordKind.console, .target, .log] := by decide
  refine Mi.read_stream hkind rfl hinner ?_
  simp only [String.toList_append, List.append_assoc]
  rfl

section
variable {digits : List Char} (hdigits : ∀ c ∈ digits, Text.isDigit c = true)
include hdigits

theorem insert_carries (args : List Char) (s : State) :
    Carried digits args s "break-insert" (insertBreakpoint (String.ofList digits) args s) := by
  unfold insertBreakpoint
  split
  · rename_i h
    exact ⟨_, .misplaced h, .cons (plainError_reads hdigits (by decide)) .nil⟩
  · rename_i file line h
    rcases next?_cases s.inserted with ⟨hfits, hnext⟩ | ⟨hover, hnext⟩ <;> rw [hnext]
    swap
    · exact .number h hover
    have hfields : List.Forall₂ Writes
        [("number", .const (toString (s.inserted + 1))), ("type", .const "breakpoint"),
          ("enabled", .const "y"), ("file", .const (String.ofList file)),
          ("line", .const (toString line))]
        [field "number" (toString (s.inserted + 1)), field "type" "breakpoint",
          field "enabled" "y", field "file" (escape file), field "line" (toString line)] :=
      .cons (writes_number (by decide) _) (.cons (writes_plain (by decide) (by decide))
        (.cons (writes_plain (by decide) (by decide))
          (.cons (writes_field (by decide) (escape_quoted file))
            (.cons (writes_number (by decide) line) .nil))))
    have hname : Mi.IsName "bkpt".toList := by decide
    have hlabel : "^done,bkpt=".toList = "^done,".toList ++ ("bkpt".toList ++ ['=']) := by decide
    exact ⟨_, .inserted h hfits, .cons (done_reads hdigits hname hlabel
      (tuple_text hfields (List.cons_ne_nil _ _))) .nil⟩

theorem list_carries (args : List Char) (s : State) :
    ∃ rs, Carries digits args s "break-list" s rs ∧
      List.Forall₂ Reads
        [String.ofList digits ++ "^done,BreakpointTable=" ++ tuple
          [field "nr_rows" (toString s.breakpoints.length),
            "body=" ++ list (s.breakpoints.map breakpointTuple)]] rs := by
  have hitems : List.Forall₂ Writes (s.breakpoints.map breakpointField)
      (s.breakpoints.map breakpointTuple) := by
    rw [List.forall₂_map_left_iff, List.forall₂_map_right_iff, List.forall₂_same]
    intro b _
    have hname : Mi.IsName "bkpt".toList := by decide
    exact writes_named hname (by decide)
      (tuple_text (.cons (writes_number (by decide) b.number)
        (.cons (writes_number (by decide) b.line) .nil)) (List.cons_ne_nil _ _))
  have hbody : Mi.IsName "body".toList := by decide
  have hfields : List.Forall₂ Writes
      [("nr_rows", .const (toString s.breakpoints.length)),
        ("body", .list ((s.breakpoints.map breakpointField).map fun f => .tuple [f]))]
      [field "nr_rows" (toString s.breakpoints.length),
        "body=" ++ list (s.breakpoints.map breakpointTuple)] :=
    .cons (writes_number (by decide) _)
      (.cons (writes_named hbody (by decide) (list_text hitems)) .nil)
  have hname : Mi.IsName "BreakpointTable".toList := by decide
  have hlabel : "^done,BreakpointTable=".toList =
      "^done,".toList ++ ("BreakpointTable".toList ++ ['=']) := by decide
  exact ⟨_, .listed, .cons (done_reads hdigits hname hlabel
    (tuple_text hfields (List.cons_ne_nil _ _))) .nil⟩

theorem frame_reads {file : String} (line : Nat) :
    Reads (String.ofList digits ++ "^done,frame=" ++ tuple
        [field "level" "0", field "file" (escape file.toList), field "line" (toString line)])
      (resultRecord digits "done"
        [("frame", .tuple [("level", .const "0"), ("file", .const file),
          ("line", .const (toString line))])]) := by
  have hname : Mi.IsName "frame".toList := by decide
  have hlabel : "^done,frame=".toList = "^done,".toList ++ ("frame".toList ++ ['=']) := by decide
  exact done_reads hdigits hname hlabel (frame_text line (by decide) (by decide))

/-- A command is carried out in one of the ways for its name, if it is. -/
theorem command_carries (name args : List Char) (s : State) :
    Carried digits args s (String.ofList name) (command (String.ofList digits) name args s) := by
  unfold command
  -- One case for each name of `commandNames`, in that order, and one for all other names.
  split
  case h_1 h => rw [h]; exact insert_carries hdigits args s
  case h_2 h => rw [h]; exact list_carries hdigits args s
  case h_3 h =>
    rw [h]
    obtain ⟨stop, hstops, hreads⟩ := run_reads hdigits 0 { s with stoppedAt := none }
    exact ⟨_, .ran hstops, hreads⟩
  case h_4 h =>
    rw [h]
    split
    · rename_i hstopped
      exact ⟨_, .notRunning hstopped, .cons (plainError_reads hdigits (by decide)) .nil⟩
    · rename_i line hstopped
      rcases next?_cases line with ⟨hfits, hnext⟩ | ⟨hover, hnext⟩ <;> rw [hnext]
      · obtain ⟨stop, hstops, hreads⟩ := run_reads hdigits (line + 1) s
        exact ⟨_, .resumed hstopped hfits hstops, hreads⟩
      · exact .place hstopped hover
  case h_5 h =>
    rw [h]
    split
    · rename_i hstopped
      exact ⟨_, .noStack hstopped, .cons (plainError_reads hdigits (by decide)) .nil⟩
    · rename_i line hstopped
      exact ⟨_, .framed hstopped, .cons (frame_reads hdigits line) .nil⟩
  case h_6 h =>
    rw [h]
    refine ⟨_, .echoed, .cons (echo_reads args) (.cons (bare_reads hdigits (by decide) ?_)
      .nil)⟩
    rw [String.toList_append, String.toList_ofList]
    rfl
  case h_7 h =>
    rw [h]
    refine ⟨_, .exited, .cons (bare_reads hdigits (by decide) ?_) .nil⟩
    rw [String.toList_append, String.toList_ofList]
    rfl
  case h_8 hinsert hlist hrun hcontinue hframe hecho hexit =>
    have hunknown : String.ofList name ∉ commandNames := by
      simp only [commandNames, List.mem_cons, List.not_mem_nil, or_false, not_or]
      exact ⟨hinsert, hlist, hrun, hcontinue, hframe, hecho, hexit⟩
    have hmessage : Mi.Quoted ("Undefined MI command: ".toList ++ name)
        ("Undefined MI command: " ++ escape name).toList := by
      rw [String.toList_append]
      exact (quoted_of_isPlain (by decide)).append (escape_quoted name)
    have hreads := error_reads hdigits hmessage
    rw [String.ofList_append, String.ofList_toList] at hreads
    exact ⟨_, .unknown hunknown, .cons hreads .nil⟩

theorem stray_reads (rest : List Char) :
    Reads (errorLine (String.ofList digits) ("Undefined command: \\\"" ++ escape rest ++ "\\\""))
      (errorRecord digits ("Undefined command: \"" ++ String.ofList rest ++ "\"")) := by
  have hplain : isPlain "Undefined command: ".toList = true := by decide
  have hstart : Mi.Quoted "Undefined command: \"".toList "Undefined command: \\\"".toList :=
    (quoted_of_isPlain hplain).append (.escape (.itself (by decide)) .nil)
  have hend : Mi.Quoted ['"'] ['\\', '"'] := .escape (.itself (by decide)) .nil
  have hmessage : Mi.Quoted ("Undefined command: \"".toList ++ rest ++ ['"'])
      ("Undefined command: \\\"" ++ escape rest ++ "\\\"").toList := by
    rw [String.toList_append, String.toList_append]
    exact (hstart.append (escape_quoted rest)).append hend
  have hreads := error_reads hdigits hmessage
  rwa [String.ofList_append, String.ofList_append, String.ofList_toList] at hreads

end

/-- A reply answers a line and is read so, or there is none for want of a sum. -/
def Answered (cs : List Char) (s : State) : Option (State × List String) → Prop
  | some (s', written) => ∃ rs, Answers cs s s' rs ∧ List.Forall₂ Reads written rs
  | none => ∃ digits rest name args, Parts cs digits rest ∧ Calls rest name args ∧
      Overflows args s name

/-- Every line is answered in one of these ways, and what is written is read as the records
of that answer, unless the line needs a sum that is no word. -/
theorem answer_answers (cs : List Char) (s : State) : Answered cs s (answer cs s) := by
  have hparts := parts_split cs
  unfold answer
  split
  · rename_i hping
    exact ⟨_, .ping hping, .cons pong_reads .nil⟩
  · rename_i hping
    dsimp only
    split
    · rename_i rest hrest
      rw [hrest] at hparts
      have hcarried := command_carries hparts.all_digits (rest.takeWhile (· != ' '))
        (Text.trimChars ((rest.dropWhile (· != ' ')).drop 1)) s
      generalize command _ (rest.takeWhile (· != ' ')) _ s = reply at hcarried ⊢
      cases reply with
      | none => exact ⟨_, _, _, _, hparts, calls_split rest, hcarried⟩
      | some =>
        obtain ⟨rs, hcarries, hreads⟩ := hcarried
        exact ⟨rs, .command hparts (calls_split rest) hcarries, hreads⟩
    · rename_i hdash
      refine ⟨_, .stray hping hparts ?_, .cons (stray_reads hparts.all_digits _) .nil⟩
      intro hhead
      obtain ⟨rest, hrest⟩ := List.head?_eq_some_iff.mp hhead
      exact hdash rest hrest

end Mock
end CheckScript
