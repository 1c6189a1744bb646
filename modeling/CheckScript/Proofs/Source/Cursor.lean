/-
The scanner by index.

It has the source as a row of characters and a cursor in it, which is moved on one character at
a time.  A character that it takes must be there: it is looked at or moved past only where the
text has one, and a stretch of the text is taken only if it ends behind its start and within the
text.  All else is `Halt.outside`.  Each turn of a loop is a step, and the scanner does not get
more of them than it is given.

`scan_eq` says that the scanner finds in this way what `comments` finds, in no more steps than
the source has characters, and one.
-/
import CheckScript.Proofs.Source.Placement
import CheckScript.Proofs.Source.Reading
import CheckScript.Proofs.Text.Index

namespace CheckScript
namespace Source

/-- The index of the next character, and its line. -/
structure Cursor where
  current : Nat
  line : Nat

namespace Cursor

open Text (Guarded)

variable (text : List Char)

def fault {α : Type} (line : Nat) (problem : SourceProblem) : Guarded SourceFault α :=
  throw (.fault ⟨line, problem⟩)

def peek (k : Cursor) : Guarded SourceFault Char := .inside text[k.current]?

/-- A look ahead, which may go behind the end. -/
def peekAt (k : Cursor) (offset : Nat) : Option Char := text[k.current + offset]?

def advance (k : Cursor) : Guarded SourceFault (Char × Cursor) := do
  let c ← peek text k
  pure (c, ⟨k.current + 1, nextLine k.line c⟩)

/-- Take a character, which must still be there. -/
def demand (start : Nat) (problem : SourceProblem) (k : Cursor) :
    Guarded SourceFault (Char × Cursor) :=
  if text.length ≤ k.current then fault start problem else advance text k

/-- Pass the character behind a backslash, if there is one. -/
def escaped (k : Cursor) : Guarded SourceFault Cursor :=
  if text.length ≤ k.current then pure k
  else do
    let taken ← advance text k
    pure taken.2

def advanceBy : Nat → Cursor → Guarded SourceFault Cursor
  | 0, k => pure k
  | n + 1, k => do
    let taken ← advance text k
    advanceBy n taken.2

def stretch (start stop : Nat) : Guarded SourceFault (List Char) :=
  if start ≤ stop ∧ stop ≤ text.length then pure ((text.take stop).drop start)
  else throw .outside

def skipWhile (p : Char → Bool) : Nat → Cursor → Guarded SourceFault Cursor
  | 0, _ => .late
  | steps + 1, k =>
    if text.length ≤ k.current then pure k
    else do
      let c ← peek text k
      if p c then do
        let taken ← advance text k
        skipWhile p steps taken.2
      else pure k

def lineComment (steps : Nat) (k : Cursor) : Guarded SourceFault (Item × Cursor) := do
  let stop ← skipWhile text (· != '\n') steps k
  let whole ← stretch text k.current stop.current
  let c := Text.dropReturn whole
  pure (.comment ⟨Comment.lineKind c, c, k.line, k.line⟩, stop)

/-- The end of a block comment that began on line `start`, inside `depth` comments. -/
def blockEnd (nested : Bool) (start : Nat) : Nat → Nat → Cursor → Guarded SourceFault Cursor
  | 0, _, _ => .late
  | steps + 1, depth, k =>
    if depth = 0 then pure k
    else if text.length ≤ k.current then fault start .openComment
    else do
      let c ← peek text k
      if nested ∧ c = '/' ∧ peekAt text k 1 = some '*' then do
        let sign ← advanceBy text 2 k
        blockEnd nested start steps (depth + 1) sign
      else if c = '*' ∧ peekAt text k 1 = some '/' then do
        let sign ← advanceBy text 2 k
        blockEnd nested start steps (depth - 1) sign
      else do
        let taken ← advance text k
        blockEnd nested start steps depth taken.2

def blockComment (nested : Bool) (steps : Nat) (k : Cursor) :
    Guarded SourceFault (Item × Cursor) := do
  let inner ← advanceBy text 2 k
  let stop ← blockEnd text nested k.line steps 1 inner
  let whole ← stretch text k.current stop.current
  pure (.comment ⟨Comment.blockKind whole, whole, k.line, stop.line⟩, stop)

def stringEnd (start : Nat) : Nat → Cursor → Guarded SourceFault Cursor
  | 0, _ => .late
  | steps + 1, k => do
    let taken ← demand text start .openString k
    if taken.1 = '\\' then do
      let next ← escaped text taken.2
      stringEnd start steps next
    else if taken.1 = '"' then pure taken.2
    else stringEnd start steps taken.2

def verbatimEnd (start : Nat) : Nat → Cursor → Guarded SourceFault Cursor
  | 0, _ => .late
  | steps + 1, k => do
    let taken ← demand text start .openVerbatim k
    if taken.1 = '"' then
      if peekAt text taken.2 0 = some '"' then do
        let doubled ← advance text taken.2
        verbatimEnd start steps doubled.2
      else pure taken.2
    else verbatimEnd start steps taken.2

def hashes : Nat → Nat → Cursor → Guarded SourceFault (Nat × Cursor)
  | 0, _, _ => .late
  | steps + 1, count, k =>
    if peekAt text k 0 = some '#' then do
      let taken ← advance text k
      hashes steps (count + 1) taken.2
    else pure (count, k)

def rawEnd (count start : Nat) : Nat → Cursor → Guarded SourceFault Cursor
  | 0, _ => .late
  | steps + 1, k => do
    let taken ← demand text start .openRaw k
    if taken.1 = '"' ∧ ∀ i < count, peekAt text taken.2 i = some '#' then
      advanceBy text count taken.2
    else rawEnd count start steps taken.2

def rawString (steps : Nat) (k : Cursor) : Guarded SourceFault Cursor := do
  let sign ← hashes text steps 0 k
  if peekAt text sign.2 0 = some '"' then do
    let taken ← advance text sign.2
    rawEnd text sign.1 k.line steps taken.2
  else fault k.line .malformedRaw

def characterEnd (start : Nat) : Nat → Cursor → Guarded SourceFault Cursor
  | 0, _ => .late
  | steps + 1, k =>
    if peekAt text k 0 = none ∨ peekAt text k 0 = some '\n' then fault start .openCharacter
    else do
      let taken ← advance text k
      if taken.1 = '\\' then do
        let next ← escaped text taken.2
        characterEnd start steps next
      else if taken.1 = '\'' then pure taken.2
      else characterEnd start steps taken.2

def characterOrLifetime (steps : Nat) (k : Cursor) : Guarded SourceFault Cursor := do
  let taken ← advance text k
  if peekAt text taken.2 0 = some '\\' then characterEnd text k.line steps taken.2
  else if peekAt text taken.2 0 ≠ none ∧ peekAt text taken.2 0 ≠ some '\n' ∧
      peekAt text taken.2 1 = some '\'' then
    advanceBy text 2 taken.2
  else pure taken.2

def identifier (steps : Nat) (k : Cursor) : Guarded SourceFault Cursor := do
  let stop ← skipWhile text Text.isNameChar steps k
  let name ← stretch text k.current stop.current
  let next := peekAt text stop 0
  if isRawMark name ∧ (next = some '"' ∨ next = some '#') then
    if next = some '#' ∧ (peekAt text stop 1).any (fun c => c != '"' && c != '#') then do
      let taken ← advance text stop
      pure taken.2
    else rawString text steps stop
  else pure stop

/-- Code that was passed. -/
def passed (r : Guarded SourceFault Cursor) : Guarded SourceFault (Item × Cursor) := do
  let k ← r
  pure (.code, k)

/-- Read what begins at the cursor. -/
def read (nested : Bool) (steps : Nat) (k : Cursor) : Guarded SourceFault (Item × Cursor) := do
  let c ← peek text k
  if c = '/' ∧ peekAt text k 1 = some '/' then lineComment text steps k
  else if c = '/' ∧ peekAt text k 1 = some '*' then blockComment text nested steps k
  else if c = '"' then passed do
    let taken ← advance text k
    stringEnd text taken.2.line steps taken.2
  else if c = '\'' then passed (characterOrLifetime text steps k)
  else if c = '@' ∧ peekAt text k 1 = some '"' then passed do
    let inner ← advanceBy text 2 k
    verbatimEnd text inner.line steps inner
  else if c = '(' ∨ c = '[' ∨ c = '{' then do
    let taken ← advance text k
    pure (.opening c, taken.2)
  else if c = ')' ∨ c = ']' ∨ c = '}' then do
    let taken ← advance text k
    pure (.closing c, taken.2)
  else if Text.isNameStart c then passed (identifier text steps k)
  else if Text.isDigit c then passed (skipWhile text isNumberChar steps k)
  else do
    let taken ← advance text k
    pure (.code, taken.2)

/-- The end of the source, where all brackets must be closed. -/
def finish (found : List Comment) : List (Char × Nat) → Guarded SourceFault (List Comment)
  | [] => pure found
  | (bracket, line) :: _ => fault line (.unclosed bracket)

/-- The comments from the cursor on, behind those that were `found` already. -/
def run (nested : Bool) : Nat → List (Char × Nat) → List Comment → Cursor →
    Guarded SourceFault (List Comment)
  | 0, _, _, _ => .late
  | steps + 1, opened, found, k =>
    if text.length ≤ k.current then finish found opened
    else do
      let taken ← read text nested (steps + 1) k
      match taken.1 with
      | .code => run nested steps opened found taken.2
      | .comment c => run nested steps opened (found ++ [c]) taken.2
      | .opening bracket => run nested steps ((bracket, k.line) :: opened) found taken.2
      | .closing bracket => do
        let outer ← .ofExcept (closeBracket k.line bracket opened)
        run nested steps outer found taken.2

/-! ## The cursor in front of a text -/

/-- The cursor in front of `cs`, an end of the source, on line `line`. -/
def before (line : Nat) (cs : List Char) : Cursor := ⟨text.length - cs.length, line⟩

/-- What a reader of a text comes to, with the cursor in front of what it has left. -/
def reached (start : Nat) (problem : SourceProblem) :
    Option (Nat × List Char) → Guarded SourceFault Cursor
  | none => fault start problem
  | some (after, rest) => pure (before text after rest)

/-- What a step in a text comes to, with the cursor in front of what it has left. -/
def stepped : Except SourceFault Step → Guarded SourceFault (Item × Cursor)
  | .error e => throw (.fault e)
  | .ok s => pure (s.item, before text s.line s.rest)

/-- What a reader of the rest of a comment comes to, if the rest begins on line `line`. -/
def finished (start line : Nat) : Option (List Char × List Char) → Guarded SourceFault Cursor
  | none => fault start .openComment
  | some (used, rest) => pure (before text (line + Text.newlines used) rest)

variable {text} {line : Nat} {c : Char} {cs rest used : List Char}

theorem peekAt_before (line : Nat) (h : cs <:+ text) (i : Nat) :
    peekAt text (before text line cs) i = cs[i]? := by
  obtain ⟨front, rfl⟩ := h
  have hstart : (front ++ cs).length - cs.length = front.length := by
    rw [List.length_append, Nat.add_sub_cancel]
  rw [peekAt, before, hstart, List.getElem?_append_right (Nat.le_add_right ..),
    Nat.add_sub_cancel_left]

theorem next_before (h : cs <:+ text) : peekAt text (before text line cs) 0 = cs.head? := by
  rw [peekAt_before line h, List.head?_eq_getElem?]

theorem peek_before (h : c :: cs <:+ text) : peek text (before text line (c :: cs)) = pure c := by
  have hpeek := peekAt_before line h 0
  rw [peekAt, Nat.add_zero] at hpeek
  rw [peek, hpeek]
  rfl

/-- Nothing is left at the end only. -/
theorem atEnd_before (h : cs <:+ text) :
    text.length ≤ (before text line cs).current ↔ cs = [] := by
  have hle := h.length_le
  rw [← List.length_eq_zero_iff]
  show text.length ≤ text.length - cs.length ↔ _
  omega

theorem advance_before (h : c :: cs <:+ text) :
    advance text (before text line (c :: cs)) = pure (c, before text (nextLine line c) cs) := by
  have hle := h.length_le
  have hnext : text.length - (c :: cs).length + 1 = text.length - cs.length := by
    rw [List.length_cons] at hle ⊢
    omega
  rw [advance, peek_before h, pure_bind]
  show pure (c, (⟨text.length - (c :: cs).length + 1, nextLine line c⟩ : Cursor)) = _
  rw [hnext]
  rfl

theorem nextLine_of_ne (h : c ≠ '\n') : nextLine line c = line := if_neg h

theorem stretch_before (line after : Nat) (h : used ++ rest <:+ text) :
    stretch text (before text line (used ++ rest)).current (before text after rest).current =
      pure used := by
  obtain ⟨front, rfl⟩ := h
  have hstart : (front ++ (used ++ rest)).length - (used ++ rest).length = front.length := by
    rw [List.length_append, Nat.add_sub_cancel]
  have hstop : (front ++ (used ++ rest)).length - rest.length = (front ++ used).length := by
    rw [← List.append_assoc, List.length_append, Nat.add_sub_cancel]
  unfold stretch before
  simp only [hstart, hstop]
  rw [if_pos, ← List.append_assoc, List.take_left, List.drop_left]
  rw [← List.append_assoc]
  simp only [List.length_append]
  omega

theorem atEnd_nil : text.length ≤ (before text line []).current :=
  (atEnd_before (List.nil_suffix ..)).mpr rfl

theorem not_atEnd (h : c :: cs <:+ text) : ¬text.length ≤ (before text line (c :: cs)).current :=
  mt (atEnd_before h).mp (List.cons_ne_nil c cs)

theorem rest_suffix (h : c :: cs <:+ text) : cs <:+ text := (List.suffix_cons c cs).trans h

theorem demand_nil (start : Nat) (problem : SourceProblem) :
    demand text start problem (before text line []) = fault start problem := if_pos atEnd_nil

theorem demand_cons (start : Nat) (problem : SourceProblem) (h : c :: cs <:+ text) :
    demand text start problem (before text line (c :: cs)) =
      pure (c, before text (nextLine line c) cs) := by
  rw [demand, if_neg (not_atEnd h), advance_before h]

theorem escaped_nil : escaped text (before text line []) = pure (before text line []) :=
  if_pos atEnd_nil

theorem escaped_cons (h : c :: cs <:+ text) :
    escaped text (before text line (c :: cs)) = pure (before text (nextLine line c) cs) := by
  rw [escaped, if_neg (not_atEnd h), advance_before h, pure_bind]

theorem skipWhile_before {p : Char → Bool} {steps : Nat} (hp : p '\n' = false)
    (hsteps : cs.length < steps) (h : cs <:+ text) :
    skipWhile text p steps (before text line cs) = pure (before text line (cs.dropWhile p)) := by
  induction cs generalizing steps with
  | nil =>
    obtain ⟨steps, rfl⟩ := Text.exists_step hsteps
    rw [skipWhile, if_pos atEnd_nil]
    rfl
  | cons c cs ih =>
    obtain ⟨steps, rfl⟩ := Text.exists_step hsteps
    have hless : cs.length < steps := Nat.lt_of_succ_lt_succ hsteps
    rw [skipWhile, if_neg (not_atEnd h), peek_before h, pure_bind]
    by_cases hc : p c = true
    · have hnewline : c ≠ '\n' := by
        rintro rfl
        exact Bool.false_ne_true (hp.symm.trans hc)
      rw [if_pos hc, advance_before h, pure_bind, nextLine_of_ne hnewline,
        ih hless (rest_suffix h), List.dropWhile_cons_of_pos hc]
    · rw [if_neg hc, List.dropWhile_cons_of_neg hc]

/-! ## Literals -/

theorem stringEnd_before {steps : Nat} (start : Nat) (hsteps : cs.length < steps)
    (h : cs <:+ text) :
    stringEnd text start steps (before text line cs) =
      reached text start .openString (afterString line cs) := by
  fun_induction afterString line cs generalizing steps with
  | case1 line =>
    obtain ⟨steps, rfl⟩ := Text.exists_step hsteps
    rw [stringEnd, demand_nil]
    rfl
  | case2 line rest =>
    obtain ⟨steps, rfl⟩ := Text.exists_step hsteps
    rw [stringEnd, demand_cons _ _ h]
    rfl
  | case3 line c rest ih =>
    obtain ⟨steps, rfl⟩ := Text.exists_step hsteps
    have hless : rest.length < steps := Nat.lt_of_succ_lt (Nat.lt_of_succ_lt_succ hsteps)
    have hrest := rest_suffix h
    have hslash : nextLine line '\\' = line := nextLine_of_ne (by decide)
    rw [stringEnd, demand_cons _ _ h, pure_bind, if_pos rfl, hslash, escaped_cons hrest, pure_bind,
      ih hless (rest_suffix hrest)]
  | case4 line c rest hquote hpair ih =>
    obtain ⟨steps, rfl⟩ := Text.exists_step hsteps
    have hless : rest.length < steps := Nat.lt_of_succ_lt_succ hsteps
    have hquote : c ≠ '"' := hquote
    rw [stringEnd, demand_cons _ _ h, pure_bind]
    simp only [if_neg hquote]
    split
    · rename_i hslash
      cases rest with
      | nil => rw [escaped_nil, pure_bind, ih hless (rest_suffix h)]
      | cons d rest => exact absurd rfl (hpair d rest hslash)
    · exact ih hless (rest_suffix h)

theorem verbatimEnd_before {steps : Nat} (start : Nat) (hsteps : cs.length < steps)
    (h : cs <:+ text) :
    verbatimEnd text start steps (before text line cs) =
      reached text start .openVerbatim (afterVerbatim line cs) := by
  have hsign : ∀ line, nextLine line '"' = line := fun line => nextLine_of_ne (by decide)
  fun_induction afterVerbatim line cs generalizing steps with
  | case1 line =>
    obtain ⟨steps, rfl⟩ := Text.exists_step hsteps
    rw [verbatimEnd, demand_nil]
    rfl
  | case2 line rest ih =>
    obtain ⟨steps, rfl⟩ := Text.exists_step hsteps
    have hless : rest.length < steps := Nat.lt_of_succ_lt (Nat.lt_of_succ_lt_succ hsteps)
    have hrest := rest_suffix h
    have hnext : peekAt text (before text line ('"' :: rest)) 0 = some '"' := next_before hrest
    rw [verbatimEnd, demand_cons _ _ h, pure_bind, if_pos rfl, hsign, if_pos hnext,
      advance_before hrest, pure_bind, hsign, ih hless (rest_suffix hrest)]
  | case3 line rest hpair =>
    obtain ⟨steps, rfl⟩ := Text.exists_step hsteps
    have hnext : peekAt text (before text line rest) 0 ≠ some '"' := by
      rw [next_before (rest_suffix h)]
      intro hhead
      obtain ⟨more, hmore⟩ := List.head?_eq_some_iff.mp hhead
      exact hpair more hmore
    rw [verbatimEnd, demand_cons _ _ h, pure_bind, if_pos rfl, hsign, if_neg hnext]
    rfl
  | case4 line c rest hpair hquote ih =>
    obtain ⟨steps, rfl⟩ := Text.exists_step hsteps
    have hless : rest.length < steps := Nat.lt_of_succ_lt_succ hsteps
    have hquote : c ≠ '"' := hquote
    rw [verbatimEnd, demand_cons _ _ h, pure_bind, if_neg hquote, ih hless (rest_suffix h)]

theorem hashes_before {steps : Nat} (count : Nat) (hsteps : cs.length < steps)
    (h : cs <:+ text) :
    hashes text steps count (before text line cs) =
      pure (count + (cs.takeWhile (· == '#')).length,
        before text line (cs.dropWhile (· == '#'))) := by
  induction cs generalizing count steps with
  | nil =>
    obtain ⟨steps, rfl⟩ := Text.exists_step hsteps
    rw [hashes, next_before h]
    rfl
  | cons c cs ih =>
    obtain ⟨steps, rfl⟩ := Text.exists_step hsteps
    have hless : cs.length < steps := Nat.lt_of_succ_lt_succ hsteps
    rw [hashes, next_before h, List.head?_cons]
    by_cases hc : c = '#'
    · subst hc
      rw [if_pos rfl, advance_before h, pure_bind, nextLine_of_ne (by decide),
        ih _ hless (rest_suffix h), Nat.add_assoc, Nat.add_comm 1]
      rfl
    · have hsign : ¬(c == '#') = true := by simpa using hc
      rw [if_neg (mt Option.some.inj hc), List.takeWhile_cons_of_neg (p := (· == '#')) hsign,
        List.dropWhile_cons_of_neg (p := (· == '#')) hsign]
      rfl

/-- The signs ahead are the hash signs that a raw literal ends with. -/
theorem hashes_ahead (line count : Nat) (h : cs <:+ text) :
    (∀ i < count, peekAt text (before text line cs) i = some '#') ↔
      (List.replicate count '#').isPrefixOf cs := by
  simp only [peekAt_before line h, List.isPrefixOf_iff_prefix]
  clear h
  induction count generalizing cs with
  | zero => simp
  | succ count ih =>
    cases cs with
    | nil =>
      refine iff_of_false (fun hall => ?_) (fun hprefix => ?_)
      · cases hall 0 (Nat.succ_pos count)
      · cases List.prefix_nil.mp hprefix
    | cons c cs =>
      rw [List.replicate_succ, List.cons_prefix_cons, ← ih]
      constructor
      · intro hall
        exact ⟨(Option.some.inj (hall 0 (Nat.succ_pos count))).symm,
          fun i hi => hall (i + 1) (Nat.succ_lt_succ hi)⟩
      · rintro ⟨rfl, hall⟩ i hi
        cases i with
        | zero => rfl
        | succ i => exact hall i (Nat.lt_of_succ_lt_succ hi)

/-- Signs that end no line are passed on the line. -/
theorem advanceBy_before (line : Nat) (hused : '\n' ∉ used) (h : used ++ rest <:+ text) :
    advanceBy text used.length (before text line (used ++ rest)) =
      pure (before text line rest) := by
  induction used with
  | nil => rfl
  | cons c used ih =>
    obtain ⟨hc, hmore⟩ := List.ne_and_not_mem_of_not_mem_cons hused
    rw [List.cons_append] at h ⊢
    rw [List.length_cons, advanceBy, advance_before h, pure_bind,
      nextLine_of_ne hc.symm, ih hmore (rest_suffix h)]

theorem pair_before (line : Nat) {d : Char} (hc : c ≠ '\n') (hd : d ≠ '\n')
    (h : c :: d :: rest <:+ text) :
    advanceBy text 2 (before text line (c :: d :: rest)) = pure (before text line rest) := by
  have hused : '\n' ∉ [c, d] := by simp [hc.symm, hd.symm]
  exact advanceBy_before line hused h

theorem rawEnd_before {steps : Nat} (count start : Nat) (hsteps : cs.length < steps)
    (h : cs <:+ text) :
    rawEnd text count start steps (before text line cs) =
      reached text start .openRaw (afterRaw count line cs) := by
  fun_induction afterRaw count line cs generalizing steps with
  | case1 line =>
    obtain ⟨steps, rfl⟩ := Text.exists_step hsteps
    rw [rawEnd, demand_nil]
    rfl
  | case2 line c rest hclose =>
    obtain ⟨steps, rfl⟩ := Text.exists_step hsteps
    obtain ⟨rfl, hhashes⟩ := hclose
    have hrest := rest_suffix h
    have hclosed := (hashes_ahead line count hrest).mpr hhashes
    obtain ⟨behind, rfl⟩ := List.isPrefixOf_iff_prefix.mp hhashes
    have hpassed := advanceBy_before line (newline_not_mem_hashes count) hrest
    rw [List.length_replicate] at hpassed
    rw [rawEnd, demand_cons _ _ h, pure_bind, nextLine_of_ne (by decide), if_pos ⟨rfl, hclosed⟩,
      hpassed, List.drop_left' List.length_replicate]
    rfl
  | case3 line c rest hopen ih =>
    obtain ⟨steps, rfl⟩ := Text.exists_step hsteps
    have hless : rest.length < steps := Nat.lt_of_succ_lt_succ hsteps
    have hrest := rest_suffix h
    rw [rawEnd, demand_cons _ _ h, pure_bind, if_neg, ih hless hrest]
    rw [hashes_ahead _ count hrest]
    exact hopen

theorem passed_reached (start : Nat) (problem : SourceProblem) (r : Option (Nat × List Char)) :
    passed (reached text start problem r) = stepped text (literal start problem r) := by
  cases r <;> rfl

theorem rawString_before {steps : Nat} (hsteps : cs.length < steps) (h : cs <:+ text) :
    passed (rawString text steps (before text line cs)) =
      stepped text (Source.rawString line cs) := by
  have hquote : cs.dropWhile (· == '#') <:+ text := (List.dropWhile_suffix _).trans h
  have hlength := (List.dropWhile_suffix (l := cs) (· == '#')).length_le
  rw [rawString, hashes_before 0 hsteps h, pure_bind, next_before hquote, Nat.zero_add]
  unfold Source.rawString
  simp only [drop_hashes]
  cases hdrop : cs.dropWhile (· == '#') with
  | nil => rfl
  | cons c rest =>
    rw [hdrop] at hquote hlength
    by_cases hc : c = '"'
    · subst hc
      rw [List.head?_cons, if_pos rfl, advance_before hquote, pure_bind,
        nextLine_of_ne (by decide),
        rawEnd_before _ _ (Nat.lt_of_le_of_lt (Nat.le_of_lt hlength) hsteps) (rest_suffix hquote)]
      exact passed_reached ..
    · rw [List.head?_cons, if_neg (mt Option.some.inj hc)]
      split
      · rename_i heq
        exact absurd (List.cons.inj heq).1 hc
      · rfl

theorem characterEnd_cons (start steps : Nat) (hc : c ≠ '\n') (h : c :: rest <:+ text) :
    characterEnd text start (steps + 1) (before text line (c :: rest)) =
      if c = '\\' then escaped text (before text line rest) >>= characterEnd text start steps
      else if c = '\'' then pure (before text line rest)
      else characterEnd text start steps (before text line rest) := by
  have hnext : ¬(peekAt text (before text line (c :: rest)) 0 = none ∨
      peekAt text (before text line (c :: rest)) 0 = some '\n') := by
    rw [next_before h, List.head?_cons, Option.some.injEq]
    exact not_or.mpr ⟨Option.some_ne_none c, hc⟩
  rw [characterEnd, if_neg hnext, advance_before h, pure_bind, nextLine_of_ne hc]

theorem characterEnd_before {steps : Nat} (start : Nat) (hsteps : cs.length < steps)
    (h : cs <:+ text) :
    characterEnd text start steps (before text line cs) =
      reached text start .openCharacter (afterCharacter line cs) := by
  fun_induction afterCharacter line cs generalizing steps with
  | case1 line =>
    obtain ⟨steps, rfl⟩ := Text.exists_step hsteps
    rw [characterEnd, if_pos (.inl (next_before h))]
    rfl
  | case2 line rest =>
    obtain ⟨steps, rfl⟩ := Text.exists_step hsteps
    rw [characterEnd, if_pos (.inr (next_before h))]
    rfl
  | case3 line rest =>
    obtain ⟨steps, rfl⟩ := Text.exists_step hsteps
    rw [characterEnd_cons start steps (by decide) h]
    rfl
  | case4 line c rest ih =>
    obtain ⟨steps, rfl⟩ := Text.exists_step hsteps
    have hless : rest.length < steps := Nat.lt_of_succ_lt (Nat.lt_of_succ_lt_succ hsteps)
    have hrest := rest_suffix h
    rw [characterEnd_cons start steps (by decide) h, if_pos rfl, escaped_cons hrest, pure_bind,
      ih hless (rest_suffix hrest)]
  | case5 line c rest hnewline hquote hpair ih =>
    obtain ⟨steps, rfl⟩ := Text.exists_step hsteps
    have hless : rest.length < steps := Nat.lt_of_succ_lt_succ hsteps
    have hrest := rest_suffix h
    have hquote : c ≠ '\'' := hquote
    rw [characterEnd_cons start steps hnewline h, if_neg hquote]
    split
    · rename_i hslash
      cases rest with
      | nil => rw [escaped_nil, pure_bind, ih hless hrest]
      | cons d rest => exact absurd rfl (hpair d rest hslash)
    · exact ih hless hrest

theorem characterOrLifetime_before {steps : Nat} (hsteps : cs.length < steps)
    (h : '\'' :: cs <:+ text) :
    passed (characterOrLifetime text steps (before text line ('\'' :: cs))) =
      stepped text (Source.characterOrLifetime line cs) := by
  have hcs := rest_suffix h
  have hstart : characterOrLifetime text steps (before text line ('\'' :: cs)) =
      if cs.head? = some '\\' then characterEnd text line steps (before text line cs)
      else if cs.head? ≠ none ∧ cs.head? ≠ some '\n' ∧ cs[1]? = some '\'' then
        advanceBy text 2 (before text line cs)
      else pure (before text line cs) := by
    rw [characterOrLifetime, advance_before h, pure_bind, nextLine_of_ne (by decide)]
    simp only [next_before hcs, peekAt_before line hcs 1]
    rfl
  rw [hstart]
  fun_cases Source.characterOrLifetime line cs with
  | case1 rest =>
    rw [List.head?_cons, if_pos rfl, characterEnd_before line hsteps hcs]
    exact passed_reached ..
  | case2 rest hslash => rfl
  | case3 c rest hslash hc =>
    have hslash : c ≠ '\\' := hslash
    have htwo := pair_before line hc (by decide) hcs
    rw [List.head?_cons, if_neg (mt Option.some.inj hslash),
      if_pos ⟨Option.some_ne_none c, mt Option.some.inj hc, rfl⟩]
    exact congrArg passed htwo
  | case4 cs hslash hquoted =>
    rw [if_neg, if_neg]
    · rfl
    · rintro ⟨-, -, hquote⟩
      cases cs with
      | nil => cases hquote
      | cons c cs =>
        obtain ⟨rest, rfl⟩ := List.head?_eq_some_iff.mp (List.head?_eq_getElem?.trans hquote)
        exact hquoted c rest rfl
    · intro hhead
      obtain ⟨rest, rfl⟩ := List.head?_eq_some_iff.mp hhead
      exact hslash rest rfl

theorem isNameChar_of_isNameStart (hc : Text.isNameStart c = true) : Text.isNameChar c = true := by
  unfold Text.isNameStart Text.isLetter at hc
  unfold Text.isNameChar Text.isWordChar
  split at hc <;> simp_all <;> rcases hc with hc | hc <;> simp [hc]

theorem identifier_before {steps : Nat} (hc : Text.isNameStart c = true)
    (hsteps : (c :: cs).length < steps) (h : c :: cs <:+ text) :
    passed (identifier text steps (before text line (c :: cs))) =
      stepped text (Source.identifier line c cs) := by
  have hname := isNameChar_of_isNameStart hc
  have hsplit : c :: cs.takeWhile Text.isNameChar ++ cs.dropWhile Text.isNameChar = c :: cs := by
    rw [List.cons_append, List.takeWhile_append_dropWhile]
  have hstretch := stretch_before line line (hsplit.symm ▸ h)
  rw [hsplit] at hstretch
  have hrest : cs.dropWhile Text.isNameChar <:+ text :=
    (List.dropWhile_suffix _).trans (rest_suffix h)
  have hlength : (cs.dropWhile Text.isNameChar).length < steps :=
    Nat.lt_of_le_of_lt (List.dropWhile_suffix _).length_le (Nat.lt_of_succ_lt hsteps)
  rw [identifier, skipWhile_before (by decide) hsteps h, pure_bind,
    List.dropWhile_cons_of_pos hname, hstretch, pure_bind]
  simp only [next_before hrest, peekAt_before _ hrest 1]
  unfold Source.identifier
  by_cases hmark : isRawMark (c :: cs.takeWhile Text.isNameChar) = true
  · simp only [hmark, true_and, if_true]
    cases hbehind : cs.dropWhile Text.isNameChar with
    | nil => rfl
    | cons e after =>
      rw [hbehind] at hrest hlength
      simp only [List.head?_cons, Option.some.injEq, List.getElem?_cons_succ]
      by_cases hquote : e = '"'
      · subst hquote
        exact rawString_before hlength hrest
      · by_cases hhash : e = '#'
        · subst hhash
          cases after with
          | nil => exact rawString_before hlength hrest
          | cons d more =>
            by_cases hd : d = '"' ∨ d = '#'
            · have hraw : (d != '"' && d != '#') = false := by
                rcases hd with rfl | rfl <;> rfl
              simp only [or_true, if_true, List.getElem?_cons_zero, Option.any_some, hraw,
                and_false, if_false, Bool.false_eq_true, hd]
              exact rawString_before hlength hrest
            · have hname : (d != '"' && d != '#') = true := by
                simpa [not_or] using hd
              simp only [or_true, if_true, List.getElem?_cons_zero, Option.any_some, hname,
                and_true, hd, if_false]
              rw [advance_before hrest, pure_bind]
              rfl
        · simp only [hquote, hhash, or_false, if_false]
          split
          · rename_i heq
            exact absurd (List.cons.inj heq).1 hquote
          · rename_i heq
            exact absurd (List.cons.inj heq).1 hhash
          · rfl
  · simp only [hmark]
    rfl

/-! ## Comments -/

theorem lineComment_before {steps : Nat} (hsteps : ('/' :: '/' :: cs).length < steps)
    (h : '/' :: '/' :: cs <:+ text) :
    lineComment text steps (before text line ('/' :: '/' :: cs)) =
      stepped text (.ok (Source.lineComment line cs)) := by
  have hsplit : '/' :: '/' :: cs.takeWhile (· != '\n') ++ cs.dropWhile (· != '\n') =
      '/' :: '/' :: cs := by
    rw [List.cons_append, List.cons_append, List.takeWhile_append_dropWhile]
  have hdrop : ('/' :: '/' :: cs).dropWhile (· != '\n') = cs.dropWhile (· != '\n') := rfl
  have hstretch := stretch_before line line (hsplit.symm ▸ h)
  rw [hsplit] at hstretch
  rw [lineComment, skipWhile_before (by decide) hsteps h, pure_bind, hdrop, hstretch, pure_bind]
  rfl

theorem newlines_cons (c : Char) (cs : List Char) :
    line + Text.newlines (c :: cs) = nextLine line c + Text.newlines cs := by
  unfold nextLine
  split
  · rename_i hc
    rw [hc, Text.newlines, List.count_cons_self, Nat.add_assoc, Nat.add_comm 1]
    rfl
  · rename_i hc
    rw [Text.newlines_cons_of_ne hc]

theorem finished_map (start : Nat) (c : Char) (r : Option (List Char × List Char)) :
    finished text start line (r.map fun p => (c :: p.1, p.2)) =
      finished text start (nextLine line c) r := by
  cases r with
  | none => rfl
  | some p => exact congrArg (fun l => pure (before text l p.2)) (newlines_cons c p.1)

theorem blockEnd_nil {nested : Bool} (start steps depth : Nat) :
    blockEnd text nested start (steps + 1) (depth + 1) (before text line []) =
      fault start .openComment := by
  rw [blockEnd, if_neg (Nat.succ_ne_zero depth), if_pos atEnd_nil]

theorem blockEnd_zero {nested : Bool} {steps : Nat} (start : Nat) (hsteps : 0 < steps)
    (k : Cursor) : blockEnd text nested start steps 0 k = pure k := by
  obtain ⟨steps, rfl⟩ := Text.exists_step hsteps
  rw [blockEnd, if_pos rfl]

theorem blockEnd_cons {nested : Bool} (start steps depth : Nat) (h : c :: rest <:+ text) :
    blockEnd text nested start (steps + 1) (depth + 1) (before text line (c :: rest)) =
      if nested ∧ c = '/' ∧ rest.head? = some '*' then
        advanceBy text 2 (before text line (c :: rest)) >>=
          blockEnd text nested start steps (depth + 2)
      else if c = '*' ∧ rest.head? = some '/' then
        advanceBy text 2 (before text line (c :: rest)) >>=
          blockEnd text nested start steps depth
      else
        blockEnd text nested start steps (depth + 1) (before text (nextLine line c) rest) := by
  rw [blockEnd, if_neg (Nat.succ_ne_zero depth), if_neg (not_atEnd h), peek_before h, pure_bind]
  simp only [peekAt_before line h 1, List.getElem?_cons_succ, ← List.head?_eq_getElem?,
    advance_before h, pure_bind]
  rfl

theorem flatBlock_before {steps : Nat} (start : Nat) (hsteps : cs.length < steps)
    (h : cs <:+ text) :
    blockEnd text false start steps 1 (before text line cs) =
      finished text start line (flatBlock cs) := by
  fun_induction flatBlock cs generalizing line steps with
  | case1 =>
    obtain ⟨steps, rfl⟩ := Text.exists_step hsteps
    rw [blockEnd_nil]
    rfl
  | case2 rest =>
    obtain ⟨steps, rfl⟩ := Text.exists_step hsteps
    rw [blockEnd_cons start steps 0 h, if_neg (by simp), if_pos ⟨rfl, rfl⟩,
      pair_before _ (by decide) (by decide) h, pure_bind,
      blockEnd_zero start (Nat.zero_lt_of_lt (Nat.lt_of_succ_lt_succ hsteps))]
    rfl
  | case3 c rest hclose ih =>
    obtain ⟨steps, rfl⟩ := Text.exists_step hsteps
    have hless : rest.length < steps := Nat.lt_of_succ_lt_succ hsteps
    have hopen : ¬(c = '*' ∧ rest.head? = some '/') := by
      rintro ⟨hc, hhead⟩
      obtain ⟨more, hmore⟩ := List.head?_eq_some_iff.mp hhead
      exact hclose more hc hmore
    rw [blockEnd_cons start steps 0 h, if_neg (by simp), if_neg hopen,
      ih hless (rest_suffix h), finished_map]

theorem nestedBlock_before {steps depth : Nat} (start : Nat) (hsteps : cs.length < steps)
    (h : cs <:+ text) :
    blockEnd text true start steps (depth + 1) (before text line cs) =
      finished text start line (nestedBlock depth cs) := by
  have hslash : ∀ line, nextLine line '/' = line := fun line => nextLine_of_ne (by decide)
  have hstar : ∀ line, nextLine line '*' = line := fun line => nextLine_of_ne (by decide)
  have hsigns : ∀ (line : Nat) (c d : Char) (r : Option (List Char × List Char)),
      finished text start line (r.map fun p => (c :: d :: p.1, p.2)) =
        finished text start (nextLine (nextLine line c) d) r := by
    intro line c d r
    rw [← finished_map, ← finished_map, Option.map_map]
    rfl
  fun_induction nestedBlock depth cs generalizing line steps with
  | case1 =>
    obtain ⟨steps, rfl⟩ := Text.exists_step hsteps
    rw [blockEnd_nil]
    rfl
  | case2 rest =>
    obtain ⟨steps, rfl⟩ := Text.exists_step hsteps
    rw [blockEnd_cons start steps 0 h, if_neg (by simp), if_pos ⟨rfl, rfl⟩,
      pair_before _ (by decide) (by decide) h, pure_bind,
      blockEnd_zero start (Nat.zero_lt_of_lt (Nat.lt_of_succ_lt_succ hsteps))]
    rfl
  | case3 depth rest ih =>
    obtain ⟨steps, rfl⟩ := Text.exists_step hsteps
    have hless : rest.length < steps := Nat.lt_of_succ_lt (Nat.lt_of_succ_lt_succ hsteps)
    rw [blockEnd_cons start steps _ h, if_neg (by simp), if_pos ⟨rfl, rfl⟩,
      pair_before _ (by decide) (by decide) h, pure_bind, ih hless (rest_suffix (rest_suffix h)),
      hsigns, hslash, hstar]
  | case4 depth rest ih =>
    obtain ⟨steps, rfl⟩ := Text.exists_step hsteps
    have hless : rest.length < steps := Nat.lt_of_succ_lt (Nat.lt_of_succ_lt_succ hsteps)
    rw [blockEnd_cons start steps _ h, if_pos ⟨rfl, rfl, rfl⟩,
      pair_before _ (by decide) (by decide) h, pure_bind, ih hless (rest_suffix (rest_suffix h)),
      hsigns, hslash, hstar]
  | case5 depth c rest hclose hinner hopen ih =>
    obtain ⟨steps, rfl⟩ := Text.exists_step hsteps
    have hless : rest.length < steps := Nat.lt_of_succ_lt_succ hsteps
    have hopener : ¬(true = true ∧ c = '/' ∧ rest.head? = some '*') := by
      rintro ⟨-, hc, hhead⟩
      obtain ⟨more, hmore⟩ := List.head?_eq_some_iff.mp hhead
      exact hopen more hc hmore
    have hcloser : ¬(c = '*' ∧ rest.head? = some '/') := by
      rintro ⟨hc, hhead⟩
      obtain ⟨more, hmore⟩ := List.head?_eq_some_iff.mp hhead
      cases depth with
      | zero => exact hclose more rfl hc hmore
      | succ depth => exact hinner depth more rfl hc hmore
    rw [blockEnd_cons start steps depth h, if_neg hopener, if_neg hcloser, ih hless (rest_suffix h),
      finished_map]

theorem blockRest_before {nested : Bool} {steps : Nat} (start : Nat)
    (hsteps : cs.length < steps) (h : cs <:+ text) :
    blockEnd text nested start steps 1 (before text line cs) =
      finished text start line (blockRest nested cs) := by
  cases nested with
  | true => exact nestedBlock_before start hsteps h
  | false => exact flatBlock_before start hsteps h

theorem blockComment_before {nested : Bool} {steps : Nat} (hsteps : cs.length < steps)
    (h : '/' :: '*' :: cs <:+ text) :
    blockComment text nested steps (before text line ('/' :: '*' :: cs)) =
      stepped text (Source.blockComment nested line cs) := by
  have hcs := rest_suffix (rest_suffix h)
  rw [blockComment, pair_before _ (by decide) (by decide) h, pure_bind,
    blockRest_before _ hsteps hcs, Source.blockComment]
  cases hread : blockRest nested cs with
  | none => rfl
  | some r =>
    obtain ⟨inner, rest⟩ := r
    have hsplit : '/' :: '*' :: inner ++ rest = '/' :: '*' :: cs :=
      congrArg ('/' :: '*' :: ·) (blockRest_append hread)
    have hstretch := stretch_before line (line + Text.newlines inner) (hsplit.symm ▸ h)
    rw [hsplit] at hstretch
    show stretch text _ (before text _ rest).current >>= _ = _
    rw [hstretch, pure_bind]
    have hlines : line + ('/' :: '*' :: inner).count '\n' = line + Text.newlines inner := by
      rw [List.count_cons_of_ne (by decide), List.count_cons_of_ne (by decide)]
      rfl
    show pure _ = stepped text
      (.ok ⟨.comment (.ofBlock line ('/' :: '*' :: inner)),
        line + ('/' :: '*' :: inner).count '\n', rest⟩)
    unfold Comment.ofBlock
    rw [hlines]
    rfl

theorem read_before {nested : Bool} {steps : Nat} (hsteps : (c :: cs).length < steps)
    (h : c :: cs <:+ text) :
    read text nested steps (before text line (c :: cs)) =
      stepped text (step nested line c cs) := by
  have hcs := rest_suffix h
  have hless : cs.length < steps := Nat.lt_of_succ_lt hsteps
  rw [read, peek_before h, pure_bind]
  simp only [peekAt_before line h 1, List.getElem?_cons_succ, ← List.head?_eq_getElem?]
  by_cases hline : c = '/' ∧ cs.head? = some '/'
  · rw [if_pos hline]
    obtain ⟨rfl, hhead⟩ := hline
    obtain ⟨rest, rfl⟩ := List.head?_eq_some_iff.mp hhead
    exact lineComment_before hsteps h
  rw [if_neg hline]
  by_cases hblock : c = '/' ∧ cs.head? = some '*'
  · rw [if_pos hblock]
    obtain ⟨rfl, hhead⟩ := hblock
    obtain ⟨rest, rfl⟩ := List.head?_eq_some_iff.mp hhead
    exact blockComment_before (Nat.lt_of_succ_lt hless) h
  rw [if_neg hblock]
  by_cases hquote : c = '"'
  · rw [if_pos hquote]
    subst hquote
    rw [advance_before h, pure_bind, nextLine_of_ne (by decide), stringEnd_before _ hless hcs]
    exact passed_reached ..
  rw [if_neg hquote]
  by_cases hcharacter : c = '\''
  · rw [if_pos hcharacter]
    subst hcharacter
    exact characterOrLifetime_before hless h
  rw [if_neg hcharacter]
  by_cases hverbatim : c = '@' ∧ cs.head? = some '"'
  · rw [if_pos hverbatim]
    obtain ⟨rfl, hhead⟩ := hverbatim
    obtain ⟨rest, rfl⟩ := List.head?_eq_some_iff.mp hhead
    rw [pair_before _ (by decide) (by decide) h, pure_bind,
      verbatimEnd_before _ (Nat.lt_of_succ_lt hless) (rest_suffix hcs)]
    exact passed_reached ..
  rw [if_neg hverbatim]
  by_cases hopening : c = '(' ∨ c = '[' ∨ c = '{'
  · rw [if_pos hopening, advance_before h, pure_bind]
    rcases hopening with rfl | rfl | rfl <;> rfl
  rw [if_neg hopening]
  by_cases hclosing : c = ')' ∨ c = ']' ∨ c = '}'
  · rw [if_pos hclosing, advance_before h, pure_bind]
    rcases hclosing with rfl | rfl | rfl <;> rfl
  rw [if_neg hclosing]
  by_cases hname : Text.isNameStart c = true
  · rw [if_pos hname, step_of_name hname]
    exact identifier_before hname hsteps h
  rw [if_neg hname]
  by_cases hdigit : Text.isDigit c = true
  · have hnumber : isNumberChar c = true := by simp [isNumberChar, hdigit]
    rw [if_pos hdigit, step_of_digit hdigit, skipWhile_before (by decide) hsteps h,
      List.dropWhile_cons_of_pos hnumber]
    rfl
  rw [if_neg hdigit]
  have hsigns : c ∉ signs := by
    simp only [signs, openings, closings, List.mem_cons, List.mem_append, List.not_mem_nil,
      or_false]
    exact not_or.mpr ⟨hquote, not_or.mpr ⟨hcharacter, not_or.mpr ⟨hopening, hclosing⟩⟩⟩
  rw [step_other hsigns
    (fun hc => ⟨fun hhead => hline ⟨hc, hhead⟩, fun hhead => hblock ⟨hc, hhead⟩⟩)
    (fun hc hhead => hverbatim ⟨hc, hhead⟩), if_neg hname, if_neg hdigit, advance_before h,
    pure_bind]
  rfl

/-! ## The whole source -/

theorem rest_less {nested : Bool} {steps : Nat} {s : Step} (hstep : step nested line c cs = .ok s)
    (hsteps : (c :: cs).length < steps + 1) : s.rest.length < steps :=
  Nat.lt_of_le_of_lt (step_suffix hstep).length_le (Nat.lt_of_succ_lt_succ hsteps)

/-- A step that is taken, and what the scanner does behind it. -/
theorem run_cons {nested : Bool} {steps : Nat} (opened : List (Char × Nat))
    (found : List Comment) {s : Step} (hsteps : (c :: cs).length < steps + 1)
    (h : c :: cs <:+ text) (hstep : step nested line c cs = .ok s) :
    run text nested (steps + 1) opened found (before text line (c :: cs)) =
      match s.item with
      | .code => run text nested steps opened found (before text s.line s.rest)
      | .comment k => run text nested steps opened (found ++ [k]) (before text s.line s.rest)
      | .opening bracket =>
        run text nested steps ((bracket, line) :: opened) found (before text s.line s.rest)
      | .closing bracket => .ofExcept (closeBracket line bracket opened) >>= fun outer =>
        run text nested steps outer found (before text s.line s.rest) := by
  rw [run, if_neg (not_atEnd h), read_before hsteps h, hstep]
  show pure (s.item, before text s.line s.rest) >>= _ = _
  rw [pure_bind]
  rfl

theorem run_before {nested : Bool} {steps : Nat} {opened : List (Char × Nat)}
    {found : List Comment} (hsteps : cs.length < steps) (h : cs <:+ text) :
    run text nested steps opened found (before text line cs) =
      .ofExcept ((scanFrom nested line opened cs).map (found ++ ·)) := by
  fun_induction scanFrom nested line opened cs generalizing found steps with
  | case1 line =>
    obtain ⟨steps, rfl⟩ := Text.exists_step hsteps
    rw [run, if_pos atEnd_nil]
    exact congrArg pure (List.append_nil found).symm
  | case2 line bracket l =>
    obtain ⟨steps, rfl⟩ := Text.exists_step hsteps
    rw [run, if_pos atEnd_nil]
    rfl
  | case3 line opened c cs fault hstep =>
    obtain ⟨steps, rfl⟩ := Text.exists_step hsteps
    rw [run, if_neg (not_atEnd h), read_before hsteps h, hstep]
    rfl
  | case4 line opened c cs s hstep hlen hitem ih =>
    obtain ⟨steps, rfl⟩ := Text.exists_step hsteps
    have hrest := (step_suffix hstep).trans (rest_suffix h)
    have hless := rest_less hstep hsteps
    rw [run_cons opened found hsteps h hstep, hitem]
    exact ih hless hrest
  | case5 line opened c cs s hstep hlen k hitem ih =>
    obtain ⟨steps, rfl⟩ := Text.exists_step hsteps
    have hrest := (step_suffix hstep).trans (rest_suffix h)
    have hless := rest_less hstep hsteps
    rw [run_cons opened found hsteps h hstep, hitem]
    refine (ih hless hrest).trans ?_
    cases scanFrom nested s.line opened s.rest with
    | error fault => rfl
    | ok later =>
      have hfound : found ++ [k] ++ later = found ++ k :: later := List.append_assoc found [k] later
      exact congrArg (fun all => Guarded.ofExcept (.ok all)) hfound
  | case6 line opened c cs s hstep hlen bracket hitem ih =>
    obtain ⟨steps, rfl⟩ := Text.exists_step hsteps
    have hrest := (step_suffix hstep).trans (rest_suffix h)
    have hless := rest_less hstep hsteps
    rw [run_cons opened found hsteps h hstep, hitem]
    exact ih hless hrest
  | case7 line opened c cs s hstep hlen bracket hitem fault hclose =>
    obtain ⟨steps, rfl⟩ := Text.exists_step hsteps
    rw [run_cons opened found hsteps h hstep, hitem]
    simp only [hclose]
    rfl
  | case8 line opened c cs s hstep hlen bracket hitem outer hclose ih =>
    obtain ⟨steps, rfl⟩ := Text.exists_step hsteps
    have hrest := (step_suffix hstep).trans (rest_suffix h)
    have hless := rest_less hstep hsteps
    rw [run_cons opened found hsteps h hstep, hitem]
    simp only [hclose]
    exact ih hless hrest

/-- The scanner from the start of a source on. -/
def scan (steps : Nat) (p : Path) (text : String) : Guarded SourceFault (List Comment) :=
  run text.toList (nestsComments p) steps [] [] ⟨0, 1⟩

/-- The scanner finds what it finds without an index, and it need not take more steps than the
source has characters, and one. -/
theorem scan_eq {steps : Nat} {text : String} (h : text.toList.length < steps) (p : Path) :
    scan steps p text = .ofExcept (comments p text) := by
  have hstart : before text.toList 1 text.toList = ⟨0, 1⟩ := by
    rw [before, Nat.sub_self]
  rw [scan, ← hstart, run_before h (List.suffix_refl text.toList)]
  unfold comments
  cases scanFrom (nestsComments p) 1 [] text.toList <;> rfl

end Cursor
end Source
end CheckScript
