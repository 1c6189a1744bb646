/-
The mock debugger over a session.

What a run says about the file is not in the line that starts it: the state of the mock knows
the file of the latest breakpoint whenever it can stop (`Knows`), and that is kept from line to
line (`after_knows`).

The mock reads on as long as it is not told to exit and each sum that it needs is a word
(`inRange_iff_reading`).
-/
import CheckScript.Proofs.Debugger.Answers
import CheckScript.Proofs.Text.Lines
import CheckScript.Record.Find
import Mathlib.Data.List.Induction

namespace CheckScript

namespace Mock

/-- The events of lines that reach the input one after another. -/
def inputs (lines : List String) : List Event := (lines.map .input).reverse

/-! ## Lines -/

/-- A line has the command `name` behind its digits. -/
def Commands (line : String) (digits : List Char) (name : String) (args : List Char) : Prop :=
  ∃ rest, Parts (Text.trimChars line.toList) digits rest ∧ Calls rest name args

/-- A file and a line, with the last colon between them. -/
inductive Locates : List Char → List Char → Nat → Prop where
  | file {file word : List Char} {line : Nat} (hcolon : ':' ∉ word)
      (hword : Integer.word? 32 word = some line) : Locates (file ++ ':' :: word) file line

def Inserts (line : String) (file : List Char) : Prop :=
  ∃ digits args n, Commands line digits "break-insert" args ∧ Locates args file n

def Exits (line : String) : Prop := ∃ digits args, Commands line digits "gdb-exit" args

/-- A line that puts a breakpoint in on line `n` of the program. -/
def Puts (line : String) (n : Nat) : Prop :=
  '\n' ∉ line.toList ∧
    ∃ digits args file, Commands line digits "break-insert" args ∧ Locates args file n

/-- A line with the command `name`, whatever its arguments. -/
def Orders (line name : String) : Prop :=
  '\n' ∉ line.toList ∧ ∃ digits args, Commands line digits name args

/-- A line that needs no sum but words. -/
def Fits (line : String) (s : State) : Prop :=
  ∀ digits name args, Commands line digits name args → ¬Overflows args s name

/-- The file of the last breakpoint that lines put in. -/
def Latest (lines : List String) (file : List Char) : Prop :=
  ∃ earlier line later, lines = earlier ++ line :: later ∧ Inserts line file ∧
    ∀ l ∈ later, ∀ other, ¬Inserts l other

theorem Calls.dash {rest args : List Char} {name : String} (h : Calls rest name args) :
    ∃ cs, rest = '-' :: cs := by
  cases h <;> exact ⟨_, rfl⟩

theorem Commands.unique {line : String} {digits digits' args args' : List Char}
    {name name' : String} (h : Commands line digits name args)
    (h' : Commands line digits' name' args') : digits = digits' ∧ name = name' ∧ args = args' := by
  obtain ⟨rest, hparts, hcalls⟩ := h
  obtain ⟨rest', hparts', hcalls'⟩ := h'
  obtain ⟨rfl, rfl⟩ := hparts.unique
  obtain ⟨rfl, rfl⟩ := hparts'.unique
  obtain ⟨cs, hcs⟩ := hcalls.dash
  rw [hcs] at hcalls hcalls'
  obtain ⟨rfl, rfl⟩ := hcalls.unique
  obtain ⟨rfl, rfl⟩ := hcalls'.unique
  exact ⟨rfl, rfl, rfl⟩

theorem location?_eq_some {args file : List Char} {line : Nat} :
    location? args = some (file, line) ↔ Locates args file line := by
  -- The last colon is the first one from behind.
  have hback {front rest : List Char} (h : ':' ∉ front) :
      location? (rest.reverse ++ ':' :: front.reverse) =
        (Integer.word? 32 front.reverse).map fun line => (rest.reverse, line) := by
    have hreverse : (rest.reverse ++ ':' :: front.reverse).reverse = front ++ ':' :: rest := by
      simp
    unfold location?
    simp only [hreverse, takeWhile_append_sign h, dropWhile_append_sign h]
  constructor
  · intro h
    rcases sign_cases ':' args.reverse with ⟨-, -, hdrop⟩ | ⟨front, rest, hfront, hargs⟩
    · unfold location? at h
      simp only [hdrop] at h
      cases h
    · have hsplit : args = rest.reverse ++ ':' :: front.reverse := by
        rw [← List.reverse_inj, hargs]
        simp
      rw [hsplit, hback hfront] at h
      obtain ⟨n, hword, hpair⟩ := Option.map_eq_some_iff.mp h
      obtain ⟨rfl, rfl⟩ := Prod.mk.inj hpair
      rw [hsplit]
      exact .file (fun hmem => hfront (List.mem_reverse.mp hmem)) hword
  · intro h
    cases h with
    | @file file word line hcolon hword =>
      have hword' : ':' ∉ word.reverse := fun hmem => hcolon (List.mem_reverse.mp hmem)
      have hlocation : location? (file.reverse.reverse ++ ':' :: word.reverse.reverse) = _ :=
        hback hword'
      rwa [List.reverse_reverse, List.reverse_reverse, hword] at hlocation

theorem puts_of_location {line cs file : String} {n : Nat} (hnewline : '\n' ∉ line.toList)
    (hline : (Text.trimChars line.toList).dropWhile Text.isDigit =
      '-' :: ("break-insert".toList ++ ' ' :: cs.toList))
    (hlocation : location? (Text.trimChars cs.toList) = some (file.toList, n)) : Puts line n := by
  have hparts := parts_split (Text.trimChars line.toList)
  rw [hline] at hparts
  have hcalls : Calls ('-' :: ("break-insert".toList ++ ' ' :: cs.toList)) "break-insert"
      (Text.trimChars cs.toList) := .withArgs (by decide)
  exact ⟨hnewline, _, _, _, ⟨_, hparts, hcalls⟩, location?_eq_some.mp hlocation⟩

theorem orders_bare {line name : String} (hnewline : '\n' ∉ line.toList)
    (hline : (Text.trimChars line.toList).dropWhile Text.isDigit = '-' :: name.toList)
    (hname : ' ' ∉ name.toList) : Orders line name := by
  have hparts := parts_split (Text.trimChars line.toList)
  have hcalls := Calls.bare hname
  rw [hline] at hparts
  rw [String.ofList_toList] at hcalls
  exact ⟨hnewline, _, _, _, hparts, hcalls⟩

theorem Orders.name_unique {line name name' : String} (h : Orders line name)
    (h' : Orders line name') : name = name' := by
  obtain ⟨-, _, _, hcommands⟩ := h
  obtain ⟨-, _, _, hcommands'⟩ := h'
  exact (hcommands.unique hcommands').2.1

theorem Puts.orders {line : String} {n : Nat} (h : Puts line n) : Orders line "break-insert" := by
  obtain ⟨hnewline, digits, args, _, hcommands, -⟩ := h
  exact ⟨hnewline, digits, args, hcommands⟩

theorem Orders.not_puts {line name : String} {n : Nat} (h : Orders line name)
    (hname : name ≠ "break-insert") : ¬Puts line n :=
  fun hputs => hname (h.name_unique hputs.orders)

theorem Orders.not_exits {line name : String} (h : Orders line name) (hname : name ≠ "gdb-exit") :
    ¬Exits line := by
  rintro ⟨digits, args, hcommands⟩
  exact hname (h.name_unique ⟨h.1, digits, args, hcommands⟩)

theorem latest_concat {lines : List String} {line : String} {file : List Char}
    (h : Inserts line file) : Latest (lines ++ [line]) file :=
  ⟨lines, line, [], rfl, h, fun _ hmem => nomatch hmem⟩

theorem Latest.concat {lines : List String} {line : String} {file : List Char}
    (h : Latest lines file) (hline : ∀ other, ¬Inserts line other) :
    Latest (lines ++ [line]) file := by
  obtain ⟨earlier, l, later, rfl, hinserts, hlater⟩ := h
  refine ⟨earlier, l, later ++ [line], by simp, hinserts, fun l' hl' => ?_⟩
  rcases List.mem_append.mp hl' with hmem | hmem
  · exact hlater l' hmem
  · rw [List.mem_singleton.mp hmem]
    exact hline

/-! ## One line -/

/-- The prompt behind an answer.  The mock does not ask for more once it has exited. -/
def promptAfter (s : State) : List Record := if s.status = .reading then [.prompt ""] else []

/-- The ways in which a line is heard. -/
inductive Hears (line : String) (s : State) : State → List Record → Prop where
  | unread (h : s.status ≠ .reading) : Hears line s s []
  | blank (h : Text.trimChars line.toList = []) : Hears line s s []
  | broken {digits args : List Char} {name : String} (hreading : s.status = .reading)
      (hline : Commands line digits name args) (h : Overflows args s name) :
      Hears line s { s with status := .broken } []
  | answered {s' : State} {rs : List Record} (hreading : s.status = .reading)
      (hline : Text.trimChars line.toList ≠ [])
      (h : Answers (Text.trimChars line.toList) s s' rs) :
      Hears line s s' (rs ++ promptAfter s')

theorem hear_hears (line : String) (s : State) :
    ∃ rs, Hears line s (hear line s).1 rs ∧ List.Forall₂ Reads (hear line s).2 rs := by
  unfold hear
  dsimp only
  by_cases hskip : s.status ≠ .reading ∨ Text.trimChars line.toList = []
  · rw [if_pos hskip]
    refine ⟨[], ?_, .nil⟩
    rcases hskip with hended | hblank
    · exact .unread hended
    · exact .blank hblank
  rw [if_neg hskip]
  obtain ⟨hreading, hline⟩ := not_or.mp hskip
  rw [not_not] at hreading
  have hanswered := answer_answers (Text.trimChars line.toList) s
  generalize answer (Text.trimChars line.toList) s = reply at hanswered ⊢
  cases reply with
  | none =>
    obtain ⟨digits, rest, name, args, hparts, hcalls, hover⟩ := hanswered
    exact ⟨[], .broken hreading ⟨rest, hparts, hcalls⟩ hover, .nil⟩
  | some reply =>
    obtain ⟨s', written⟩ := reply
    obtain ⟨rs, hanswers, hreads⟩ := hanswered
    refine ⟨_, .answered hreading hline hanswers, ?_⟩
    dsimp only
    by_cases hon : s'.status = .reading
    · rw [promptAfter, if_pos hon, if_pos hon]
      exact List.rel_append hreads (.cons prompt_reads .nil)
    · rw [promptAfter, if_neg hon, if_neg hon, List.append_nil]
      exact hreads

theorem Commands.nonblank {line name : String} {digits args : List Char}
    (h : Commands line digits name args) : Text.trimChars line.toList ≠ [] := by
  obtain ⟨rest, hparts, hcalls⟩ := h
  obtain ⟨cs, rfl⟩ := hcalls.dash
  rw [hparts.join]
  exact List.append_ne_nil_of_right_ne_nil _ (List.cons_ne_nil _ _)

theorem Hears.answers {line : String} {s s' : State} {rs : List Record}
    (h : Hears line s s' rs) (hreading : s.status = .reading) (hfits : Fits line s)
    (hline : Text.trimChars line.toList ≠ []) :
    ∃ rs', Answers (Text.trimChars line.toList) s s' rs' ∧ rs = rs' ++ promptAfter s' := by
  cases h with
  | unread h => exact absurd hreading h
  | blank h => exact absurd h hline
  | broken _ hcommands h => exact absurd h (hfits _ _ _ hcommands)
  | answered _ _ h => exact ⟨_, h, rfl⟩

theorem Commands.not_ping {line name : String} {digits args : List Char}
    (h : Commands line digits name args) : Text.trimChars line.toList ≠ "ping".toList := by
  obtain ⟨rest, hparts, hcalls⟩ := h
  obtain ⟨cs, rfl⟩ := hcalls.dash
  intro hping
  have hhead := congrArg List.head? hparts.unique.2
  rw [hping, List.head?_cons] at hhead
  exact absurd hhead (by decide)

/-- A line with a command is answered by that command. -/
theorem Answers.carries {line name : String} {digits args : List Char} {s s' : State}
    {rs : List Record} (h : Answers (Text.trimChars line.toList) s s' rs)
    (hline : Commands line digits name args) : Carries digits args s name s' rs := by
  have hnot := hline.not_ping
  obtain ⟨rest, hparts, hcalls⟩ := hline
  cases h with
  | ping hping => exact absurd hping hnot
  | stray _ hstray hdash =>
    obtain ⟨cs, rfl⟩ := hcalls.dash
    rw [hstray.unique.2, ← hparts.unique.2] at hdash
    exact absurd rfl hdash
  | command hparts' hcalls' h =>
    obtain ⟨rfl, rfl, rfl⟩ := Commands.unique ⟨_, hparts, hcalls⟩ ⟨_, hparts', hcalls'⟩
    exact h

theorem Hears.carries {line name : String} {digits args : List Char} {s s' : State}
    {rs : List Record} (h : Hears line s s' rs) (hreading : s.status = .reading)
    (hfits : Fits line s) (hline : Commands line digits name args) :
    ∃ rs', Carries digits args s name s' rs' ∧ rs = rs' ++ promptAfter s' := by
  obtain ⟨rs', hanswers, hrs⟩ := h.answers hreading hfits hline.nonblank
  exact ⟨rs', hanswers.carries hline, hrs⟩

/-! ## Sums -/

theorem Overflows.known {args : List Char} {s : State} {name : String}
    (h : Overflows args s name) : name = "break-insert" ∨ name = "exec-continue" := by
  cases h with
  | number => exact .inl rfl
  | place => exact .inr rfl

theorem Overflows.of_insert {args : List Char} {s : State} {name : String}
    (h : Overflows args s name) (hname : name = "break-insert") :
    ¬s.inserted + 1 < Nat.pow 2 32 := by
  cases h with
  | number _ hover => exact hover
  | place => exact absurd hname (by decide)

theorem Overflows.of_continue {args : List Char} {s : State} {name : String}
    (h : Overflows args s name) (hname : name = "exec-continue") :
    ∃ n, s.stoppedAt = some n ∧ ¬n + 1 < Nat.pow 2 32 := by
  cases h with
  | number => exact absurd hname (by decide)
  | place hstopped hover => exact ⟨_, hstopped, hover⟩

theorem fits_of_name {line name : String} {digits args : List Char} {s : State}
    (hline : Commands line digits name args)
    (hname : ¬(name = "break-insert" ∨ name = "exec-continue")) : Fits line s := by
  intro digits' name' args' hline' hover
  obtain ⟨-, rfl, -⟩ := hline.unique hline'
  exact hname hover.known

theorem Carries.fits {digits args : List Char} {name : String} {s s' : State}
    {rs : List Record} (h : Carries digits args s name s' rs) : ¬Overflows args s name := by
  intro hover
  have hunknown : name ∉ commandNames → False := by
    rcases hover.known with rfl | rfl <;> exact fun h => h (by decide)
  generalize hname : name = known at hover
  cases hover with
  | number hlocation hover =>
    cases h with
    | misplaced h => rw [hlocation] at h; cases h
    | inserted _ hfits => exact hover hfits
    | unknown h => exact hunknown h
    | listed | ran | notRunning | resumed | noStack | framed | echoed | exited =>
      exact absurd hname (by decide)
  | place hstopped hover =>
    cases h with
    | notRunning h => rw [hstopped] at h; cases h
    | resumed h hfits =>
      rw [hstopped] at h
      exact hover (Option.some.inj h ▸ hfits)
    | unknown h => exact hunknown h
    | misplaced | inserted | listed | ran | noStack | framed | echoed | exited =>
      exact absurd hname (by decide)

/-- A line needs no sum but words, or the mock breaks down over its command and writes nothing. -/
theorem Hears.fits_or_breaks {line : String} {s s' : State} {rs : List Record}
    (h : Hears line s s' rs) (hreading : s.status = .reading) :
    Fits line s ∨ s' = { s with status := .broken } ∧ rs = [] ∧
      ∃ digits name args, Commands line digits name args := by
  cases h with
  | unread h => exact absurd hreading h
  | blank h => exact .inl fun _ _ _ hline _ => hline.nonblank h
  | broken _ hline _ => exact .inr ⟨rfl, rfl, _, _, _, hline⟩
  | answered _ _ h => exact .inl fun _ _ _ hline => (h.carries hline).fits

/-- The mock reads on only behind lines that need no sum but words. -/
theorem Hears.reading {line : String} {s s' : State} {rs : List Record} (h : Hears line s s' rs)
    (hreading : s'.status = .reading) : s.status = .reading ∧ Fits line s := by
  have hbefore : s.status = .reading := by
    cases h with
    | unread | blank => exact hreading
    | broken => cases hreading
    | answered hbefore => exact hbefore
  refine ⟨hbefore, (h.fits_or_breaks hbefore).resolve_right ?_⟩
  rintro ⟨rfl, -⟩
  cases hreading

/-! ## From line to line -/

/-- What the state knows of the lines before.  A run can stop only behind a breakpoint. -/
inductive Knows (lines : List String) (s : State) : Prop where
  | fresh (hlines : ∀ line ∈ lines, ∀ file, ¬Inserts line file) (hnone : s.breakpoints = [])
      (hstopped : s.stoppedAt = none)
  | latest {file : List Char} (hsome : s.breakpoints ≠ []) (hlatest : Latest lines file)
      (hfile : s.file = String.ofList file)

theorem place_ne_nil (b : Breakpoint) (bs : List Breakpoint) : place b bs ≠ [] := by
  cases bs with
  | nil => exact List.cons_ne_nil _ _
  | cons c bs =>
    unfold place
    split <;> exact List.cons_ne_nil _ _

/-- A step that puts no breakpoint in.  It can stop the program only if there is one. -/
structure Keeps (s s' : State) : Prop where
  breakpoints : s'.breakpoints = s.breakpoints
  file : s'.file = s.file
  stopped : s.breakpoints = [] → s.stoppedAt = none → s'.stoppedAt = none

theorem Stops.keeps {first : Nat} {s s' : State} {stop : Record} (h : Stops first s s' stop) :
    Keeps s s' := by
  cases h with
  | hit h =>
    refine ⟨rfl, rfl, fun hnone => ?_⟩
    rw [hnone] at h
    cases h
  | ended h => exact ⟨rfl, rfl, fun _ _ => rfl⟩

theorem Carries.keeps {digits args : List Char} {name : String} {s s' : State}
    {rs : List Record} (h : Carries digits args s name s' rs)
    (hinsert : name = "break-insert" → location? args = none) : Keeps s s' := by
  cases h with
  | inserted h => rw [hinsert rfl] at h; cases h
  | ran h =>
    obtain ⟨hbreakpoints, hfile, hstopped⟩ := h.keeps
    exact ⟨hbreakpoints, hfile, fun hnone _ => hstopped hnone rfl⟩
  | resumed _ _ h => exact h.keeps
  | misplaced | listed | notRunning | noStack | framed | echoed | exited | unknown =>
    exact ⟨rfl, rfl, fun _ h => h⟩

/-- What a breakpoint with this number is reported as. -/
def putRecord (digits : List Char) (number : Nat) (file : String) (line : Nat) : Record :=
  resultRecord digits "done"
    [("bkpt", .tuple [("number", .const (toString number)), ("type", .const "breakpoint"),
      ("enabled", .const "y"), ("file", .const file), ("line", .const (toString line))])]

theorem Carries.puts {digits args file : List Char} {n : Nat} {name : String} {s s' : State}
    {rs : List Record} (h : Carries digits args s name s' rs) (hname : name = "break-insert")
    (hlocates : Locates args file n) :
    s' = { s with inserted := s.inserted + 1,
                  breakpoints := place ⟨n, s.inserted + 1⟩ s.breakpoints,
                  file := String.ofList file } ∧
      rs = [putRecord digits (s.inserted + 1) (String.ofList file) n] := by
  have hlocation := location?_eq_some.mpr hlocates
  cases h with
  | misplaced h => rw [hlocation] at h; cases h
  | inserted h =>
    rw [hlocation] at h
    obtain ⟨rfl, rfl⟩ := Prod.mk.inj (Option.some.inj h)
    exact ⟨rfl, rfl⟩
  | unknown h => exact absurd (hname ▸ by decide) h
  | listed | ran | notRunning | resumed | noStack | framed | echoed | exited =>
    exact absurd hname (by decide)

theorem Carries.inserts {digits args file : List Char} {n : Nat} {name : String} {s s' : State}
    {rs : List Record} (h : Carries digits args s name s' rs) (hname : name = "break-insert")
    (hlocates : Locates args file n) :
    s'.breakpoints ≠ [] ∧ s'.file = String.ofList file ∧
      ∃ r ∈ rs, r.find? "bkpt.file" = some (.const (String.ofList file)) := by
  obtain ⟨rfl, rfl⟩ := h.puts hname hlocates
  exact ⟨place_ne_nil _ _, rfl, _, List.mem_cons_self, rfl⟩

theorem Carries.runs {digits args : List Char} {name : String} {s s' : State}
    {rs : List Record} (h : Carries digits args s name s' rs) (hname : name = "exec-run") :
    ∃ stop, Stops 0 { s with stoppedAt := none } s' stop ∧ rs = runRecords digits stop := by
  cases h with
  | ran h => exact ⟨_, h, rfl⟩
  | unknown h => exact absurd (hname ▸ by decide) h
  | inserted | misplaced | listed | notRunning | resumed | noStack | framed | echoed | exited =>
    exact absurd hname (by decide)

theorem Answers.keeps {cs : List Char} {s s' : State} {rs : List Record}
    (h : Answers cs s s' rs)
    (hinsert : ∀ digits rest args, Parts cs digits rest → Calls rest "break-insert" args →
      location? args = none) : Keeps s s' := by
  cases h with
  | ping | stray => exact ⟨rfl, rfl, fun _ h => h⟩
  | command hparts hcalls h =>
    refine h.keeps fun hname => ?_
    rw [hname] at hcalls
    exact hinsert _ _ _ hparts hcalls

theorem Carries.status_eq {digits args : List Char} {name : String} {s s' : State}
    {rs : List Record} (h : Carries digits args s name s' rs) (hname : name ≠ "gdb-exit") :
    s'.status = s.status := by
  cases h with
  | exited => exact absurd rfl hname
  | ran h | resumed _ _ h => cases h <;> rfl
  | inserted | misplaced | listed | notRunning | noStack | framed | echoed | unknown => rfl

theorem Hears.status_eq {line : String} {s s' : State} {rs : List Record}
    (h : Hears line s s' rs) (hline : ¬Exits line) (hfits : Fits line s) :
    s'.status = s.status := by
  cases h with
  | unread | blank => rfl
  | broken _ hcommands h => exact absurd h (hfits _ _ _ hcommands)
  | answered _ _ h =>
    cases h with
    | ping | stray => rfl
    | command hparts hcalls h =>
      refine h.status_eq fun hname => ?_
      rw [hname] at hcalls
      exact hline ⟨_, _, _, hparts, hcalls⟩

theorem Knows.concat {lines : List String} {line : String} {s s' : State} {rs : List Record}
    (h : Knows lines s) (hreading : s.status = .reading) (hfits : Fits line s)
    (hears : Hears line s s' rs) : Knows (lines ++ [line]) s' := by
  -- Only a line that puts a breakpoint in changes what the state knows.
  by_cases hinserts : ∃ file, Inserts line file
  · obtain ⟨file, digits, args, n, hline, hlocates⟩ := hinserts
    obtain ⟨rs', hcarries, -⟩ := hears.carries hreading hfits hline
    obtain ⟨hsome, hfile, -⟩ := hcarries.inserts rfl hlocates
    exact .latest hsome (latest_concat ⟨_, _, _, hline, hlocates⟩) hfile
  · have hnone : ∀ file, ¬Inserts line file := not_exists.mp hinserts
    have hkeeps : Keeps s s' := by
      cases hears with
      | unread | blank | broken => exact ⟨rfl, rfl, fun _ h => h⟩
      | answered _ _ h =>
        refine h.keeps fun digits rest args hparts hcalls => ?_
        rw [Option.eq_none_iff_forall_ne_some]
        rintro ⟨file, n⟩ hlocation
        exact hnone file ⟨_, _, _, ⟨_, hparts, hcalls⟩, location?_eq_some.mp hlocation⟩
    cases h with
    | fresh hlines hbreakpoints hstopped =>
      refine .fresh (fun l hl => ?_) (hkeeps.breakpoints.trans hbreakpoints)
        (hkeeps.stopped hbreakpoints hstopped)
      rcases List.mem_append.mp hl with hmem | hmem
      · exact hlines l hmem
      · rw [List.mem_singleton.mp hmem]
        exact hnone
    | latest hsome hlatest hfile =>
      refine .latest ?_ (hlatest.concat hnone) (hkeeps.file.trans hfile)
      rw [hkeeps.breakpoints]
      exact hsome

/-! ## Sessions -/

/-- The state behind lines that reached the input one after another. -/
def after (lines : List String) : State := stateAfter (inputs lines)

theorem inputs_concat (lines : List String) (line : String) :
    inputs (lines ++ [line]) = .input line :: inputs lines := by
  rw [inputs, List.map_append, List.reverse_append]
  rfl

theorem trimChars_dropReturn (cs : List Char) :
    Text.trimChars (Text.dropReturn cs) = Text.trimChars cs := by
  by_cases h : cs.getLast? = some '\r'
  · obtain ⟨front, rfl⟩ := List.getLast?_eq_some_iff.mp h
    rw [Text.dropReturn, if_pos h, List.dropLast_concat]
    have hreturn : Text.isBlank '\r' = true := by decide
    unfold Text.trimChars Text.trimStart
    rw [List.dropWhile_append]
    split
    · rename_i hempty
      rw [List.isEmpty_iff.mp hempty, List.dropWhile_cons_of_pos hreturn]
      rfl
    · unfold Text.trimEnd
      rw [List.reverse_concat, List.dropWhile_cons_of_pos hreturn]
  · rw [Text.dropReturn, if_neg h]

theorem inputLines_of_not_mem {line : String} (h : '\n' ∉ line.toList) :
    Debugger.inputLines line = [String.ofList (Text.dropReturn line.toList)] := by
  have hnewline : "\n".toList = ['\n'] := rfl
  rw [Debugger.inputLines, Text.lines, Text.lineChars, String.toList_append, hnewline,
    Text.cut_append_sep h]
  rfl

/-- A line without a newline is read as it is, but for a carriage return at its end. -/
theorem hearAll_inputLines {line : String} (h : '\n' ∉ line.toList) (s : State) :
    hearAll (Debugger.inputLines line) s = hear line s := by
  have hsame : hear (String.ofList (Text.dropReturn line.toList)) s = hear line s := by
    unfold hear
    rw [String.toList_ofList, trimChars_dropReturn]
  rw [inputLines_of_not_mem h, ← hsame, hearAll, List.foldl_cons, List.foldl_nil]
  simp only [List.nil_append]

theorem output_inputs {line : String} (h : '\n' ∉ line.toList) (lines : List String) :
    Debugger.mock.output (.input line :: inputs lines) = (hear line (after lines)).2 :=
  congrArg Prod.snd (hearAll_inputLines h (after lines))

theorem after_concat {line : String} (h : '\n' ∉ line.toList) (lines : List String) :
    after (lines ++ [line]) = (hear line (after lines)).1 := by
  rw [after, inputs_concat]
  exact congrArg Prod.fst (hearAll_inputLines h (after lines))

/-- One more line, as the state hears it that the lines before have led to. -/
theorem after_hears {line : String} (h : '\n' ∉ line.toList) (before : List String) :
    ∃ rs, Hears line (after before) (after (before ++ [line])) rs ∧
      List.Forall₂ Reads (Debugger.mock.output (.input line :: inputs before)) rs := by
  rw [after_concat h, output_inputs h]
  exact hear_hears line (after before)

/-- A mock that reads on behind some lines has read on behind each of them. -/
theorem reading_of_append {before rest : List String} (hrest : ∀ line ∈ rest, '\n' ∉ line.toList)
    (h : (after (before ++ rest)).status = .reading) : (after before).status = .reading := by
  induction rest using List.reverseRecOn with
  | nil => rwa [List.append_nil] at h
  | append_singleton rest line ih =>
    obtain ⟨hrest, hline⟩ := List.forall_mem_append.mp hrest
    rw [← List.append_assoc] at h
    obtain ⟨rs, hhears, -⟩ := after_hears (hline line List.mem_cons_self) (before ++ rest)
    exact ih hrest (hhears.reading h).1

/-- A mock that reads on knows the latest breakpoint. -/
theorem after_knows {lines : List String} (hlines : ∀ line ∈ lines, '\n' ∉ line.toList)
    (hreading : (after lines).status = .reading) : Knows lines (after lines) := by
  induction lines using List.reverseRecOn with
  | nil => exact .fresh (fun _ h => nomatch h) rfl rfl
  | append_singleton lines line ih =>
    have hmem : line ∈ lines ++ [line] := List.mem_append_right _ List.mem_cons_self
    obtain ⟨rs, hhears, -⟩ := after_hears (hlines line hmem) lines
    obtain ⟨hbefore, hfits⟩ := hhears.reading hreading
    exact (ih (fun l hl => hlines l (List.mem_append_left _ hl)) hbefore).concat hbefore hfits
      hhears

/-- The mock has been given the first of these lines, and none of them tells it to exit. -/
structure Goes (lines before : List String) : Prop where
  first : before <+: lines
  noExit : ∀ l ∈ before, ¬Exits l

/-- Each sum of the session is a word. -/
structure InRange (lines : List String) : Prop where
  numbers : ∀ before line n, Goes lines (before ++ [line]) → Puts line n →
    (after before).inserted + 1 < Nat.pow 2 32
  places : ∀ before line n, Goes lines (before ++ [line]) → Orders line "exec-continue" →
    (after before).stoppedAt = some n → n + 1 < Nat.pow 2 32

/-- A breakpoint on the last line, where the program stops and is to go on. -/
def farthestLines : List String :=
  ["1-break-insert f:4294967295", "2-exec-run", "3-exec-continue"]

theorem farthest_puts : Puts "1-break-insert f:4294967295" 4294967295 := by
  have hlocation : location? (Text.trimChars "f:4294967295".toList) =
      some ("f".toList, 4294967295) := by decide
  exact puts_of_location (by decide) (by decide) hlocation

theorem run_orders : Orders "2-exec-run" "exec-run" :=
  orders_bare (by decide) (by decide) (by decide)

theorem continue_orders : Orders "3-exec-continue" "exec-continue" :=
  orders_bare (by decide) (by decide) (by decide)

theorem goes_farthestLines :
    (∀ line ∈ farthestLines, '\n' ∉ line.toList) ∧ Goes farthestLines farthestLines := by
  refine ⟨?_, List.prefix_refl _, ?_⟩
  · exact List.forall_mem_cons.mpr ⟨farthest_puts.1, List.forall_mem_cons.mpr
      ⟨run_orders.1, List.forall_mem_singleton.mpr continue_orders.1⟩⟩
  · exact List.forall_mem_cons.mpr ⟨farthest_puts.orders.not_exits (by decide),
      List.forall_mem_cons.mpr ⟨run_orders.not_exits (by decide),
        List.forall_mem_singleton.mpr (continue_orders.not_exits (by decide))⟩⟩

section
variable {lines before : List String} {line : String}

theorem Goes.of_concat (h : Goes lines (before ++ [line])) : Goes lines before :=
  ⟨(List.prefix_append _ _).trans h.first, fun l hl => h.noExit l (List.mem_append_left _ hl)⟩

theorem Goes.last (h : Goes lines (before ++ [line])) : line ∈ lines ∧ ¬Exits line := by
  have hmem : line ∈ before ++ [line] := List.mem_append_right _ List.mem_cons_self
  exact ⟨h.first.subset hmem, h.noExit line hmem⟩

variable (hlines : ∀ line ∈ lines, '\n' ∉ line.toList)
include hlines

theorem InRange.fits (h : InRange lines) (hgoes : Goes lines (before ++ [line])) :
    Fits line (after before) := by
  have hnewline := hlines line hgoes.last.1
  intro digits name args hline hover
  cases hover with
  | number hlocation hover =>
    exact hover (h.numbers before line _ hgoes
      ⟨hnewline, _, _, _, hline, location?_eq_some.mp hlocation⟩)
  | place hstopped hover =>
    exact hover (h.places before line _ hgoes ⟨hnewline, _, _, hline⟩ hstopped)

theorem InRange.reading (h : InRange lines) (hgoes : Goes lines before) :
    (after before).status = .reading := by
  induction before using List.reverseRecOn with
  | nil => rfl
  | append_singleton before line ih =>
    obtain ⟨hmem, hexits⟩ := hgoes.last
    obtain ⟨rs, hhears, -⟩ := after_hears (hlines line hmem) before
    exact (hhears.status_eq hexits (h.fits hlines hgoes)).trans (ih hgoes.of_concat)

/-- The sums are words exactly as long as the mock does not break down. -/
theorem inRange_iff_reading :
    InRange lines ↔ ∀ before, Goes lines before → (after before).status = .reading := by
  refine ⟨fun h _ => h.reading hlines, fun h => ?_⟩
  have hfits : ∀ before line, Goes lines (before ++ [line]) → Fits line (after before) := by
    intro before line hgoes
    obtain ⟨rs, hhears, -⟩ := after_hears (hlines line hgoes.last.1) before
    exact (hhears.reading (h _ hgoes)).2
  constructor
  · rintro before line n hgoes ⟨-, digits, args, file, hline, hlocates⟩
    by_contra hover
    exact hfits before line hgoes _ _ _ hline (.number (location?_eq_some.mpr hlocates) hover)
  · rintro before line n hgoes ⟨-, digits, args, hline⟩ hstopped
    by_contra hover
    exact hfits before line hgoes _ _ _ hline (.place hstopped hover)

end

end Mock
end CheckScript
