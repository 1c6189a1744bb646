/-
The comments of a source file in a C-like language.  The scanner passes over
literals, so that comment signs in them do not count, and it refuses code whose
brackets or literals do not close.

Each reader below starts behind the sign that opens its literal and gives the
line and the text behind the literal.
-/
import CheckScript.Path
import CheckScript.Source.Comment
import CheckScript.Source.Fault
import CheckScript.Text.Letter
import CheckScript.Text.Lines

namespace CheckScript
namespace Source

/-- The line behind `c`, if `c` stands on line `line`. -/
def nextLine (line : Nat) (c : Char) : Nat := if c = '\n' then line + 1 else line

/-- A literal with backslash escapes. -/
def afterString (line : Nat) : List Char → Option (Nat × List Char)
  | [] => none
  | '"' :: rest => some (line, rest)
  | '\\' :: c :: rest => afterString (nextLine line c) rest
  | c :: rest => afterString (nextLine line c) rest

/-- A literal without escapes, in which a doubled quote stands for a quote. -/
def afterVerbatim (line : Nat) : List Char → Option (Nat × List Char)
  | [] => none
  | '"' :: '"' :: rest => afterVerbatim line rest
  | '"' :: rest => some (line, rest)
  | c :: rest => afterVerbatim (nextLine line c) rest

/-- A literal that ends at a quote with `hashes` hash signs behind it. -/
def afterRaw (hashes line : Nat) : List Char → Option (Nat × List Char)
  | [] => none
  | c :: rest =>
    if c = '"' ∧ (List.replicate hashes '#').isPrefixOf rest then some (line, rest.drop hashes)
    else afterRaw hashes (nextLine line c) rest

/-- A character literal that begins with an escape; it ends on its own line, an
escaped newline apart. -/
def afterCharacter (line : Nat) : List Char → Option (Nat × List Char)
  | [] => none
  | '\n' :: _ => none
  | '\'' :: rest => some (line, rest)
  | '\\' :: c :: rest => afterCharacter (nextLine line c) rest
  | _ :: rest => afterCharacter line rest

/-- The rest of a block comment in which openers are plain text, and what
follows it. -/
def flatBlock : List Char → Option (List Char × List Char)
  | [] => none
  | '*' :: '/' :: rest => some (['*', '/'], rest)
  | c :: rest => (flatBlock rest).map fun r => (c :: r.1, r.2)

/-- The rest of a block comment inside `depth` more comments. -/
def nestedBlock : Nat → List Char → Option (List Char × List Char)
  | _, [] => none
  | 0, '*' :: '/' :: rest => some (['*', '/'], rest)
  | depth + 1, '*' :: '/' :: rest =>
    (nestedBlock depth rest).map fun r => ('*' :: '/' :: r.1, r.2)
  | depth, '/' :: '*' :: rest =>
    (nestedBlock (depth + 1) rest).map fun r => ('/' :: '*' :: r.1, r.2)
  | depth, c :: rest => (nestedBlock depth rest).map fun r => (c :: r.1, r.2)

def blockRest (nested : Bool) (cs : List Char) : Option (List Char × List Char) :=
  if nested then nestedBlock 0 cs else flatBlock cs

/-- What the scanner meets in code. -/
inductive Item where
  | code
  | comment (c : Comment)
  | opening (bracket : Char)
  | closing (bracket : Char)

structure Step where
  item : Item
  line : Nat
  rest : List Char

/-- Pass over a literal that must end. -/
def literal (line : Nat) (problem : SourceProblem) :
    Option (Nat × List Char) → Except SourceFault Step
  | none => .error ⟨line, problem⟩
  | some (after, rest) => .ok ⟨.code, after, rest⟩

def lineComment (line : Nat) (cs : List Char) : Step :=
  let text := '/' :: '/' :: cs.takeWhile (· != '\n')
  ⟨.comment (.ofLine line (Text.dropReturn text)), line, cs.dropWhile (· != '\n')⟩

def blockComment (nested : Bool) (line : Nat) (cs : List Char) : Except SourceFault Step :=
  match blockRest nested cs with
  | none => .error ⟨line, .openComment⟩
  | some (text, rest) =>
    let c := Comment.ofBlock line ('/' :: '*' :: text)
    .ok ⟨.comment c, c.endLine, rest⟩

/-- A quote that no character and second quote follow begins a lifetime or a
label, whose name is code. -/
def characterOrLifetime (line : Nat) (cs : List Char) : Except SourceFault Step :=
  match cs with
  | '\\' :: _ => literal line .openCharacter (afterCharacter line cs)
  | c :: '\'' :: rest => if c = '\n' then .ok ⟨.code, line, cs⟩ else .ok ⟨.code, line, rest⟩
  | _ => .ok ⟨.code, line, cs⟩

/-- A raw literal from its first hash sign or quote. -/
def rawString (line : Nat) (cs : List Char) : Except SourceFault Step :=
  let hashes := (cs.takeWhile (· == '#')).length
  match cs.drop hashes with
  | '"' :: rest => literal line .openRaw (afterRaw hashes line rest)
  | _ => .error ⟨line, .malformedRaw⟩

/-- The names that announce a raw literal.  With one hash sign and no quote they
announce a name instead. -/
def isRawMark (name : List Char) : Bool :=
  name == ['r'] || name == ['b', 'r'] || name == ['c', 'r']

def identifier (line : Nat) (c : Char) (cs : List Char) : Except SourceFault Step :=
  let name := c :: cs.takeWhile Text.isNameChar
  let rest := cs.dropWhile Text.isNameChar
  if isRawMark name then
    match rest with
    | '"' :: _ => rawString line rest
    | '#' :: after =>
      match after with
      | [] => rawString line rest
      | d :: _ => if d = '"' ∨ d = '#' then rawString line rest else .ok ⟨.code, line, after⟩
    | _ => .ok ⟨.code, line, rest⟩
  else .ok ⟨.code, line, rest⟩

def isNumberChar (c : Char) : Bool := Text.isAsciiLetter c || Text.isDigit c || c == '_'

/-- Read what begins with `c` on line `line`. -/
def step (nested : Bool) (line : Nat) (c : Char) (cs : List Char) : Except SourceFault Step :=
  match c, cs with
  | '/', '/' :: rest => .ok (lineComment line rest)
  | '/', '*' :: rest => blockComment nested line rest
  | '"', cs => literal line .openString (afterString line cs)
  | '\'', cs => characterOrLifetime line cs
  | '@', '"' :: rest => literal line .openVerbatim (afterVerbatim line rest)
  | '(', cs => .ok ⟨.opening '(', line, cs⟩
  | '[', cs => .ok ⟨.opening '[', line, cs⟩
  | '{', cs => .ok ⟨.opening '{', line, cs⟩
  | ')', cs => .ok ⟨.closing ')', line, cs⟩
  | ']', cs => .ok ⟨.closing ']', line, cs⟩
  | '}', cs => .ok ⟨.closing '}', line, cs⟩
  | c, cs =>
    if Text.isNameStart c then identifier line c cs
    else if Text.isDigit c then .ok ⟨.code, line, cs.dropWhile isNumberChar⟩
    else .ok ⟨.code, nextLine line c, cs⟩

def openingOf : Char → Char
  | ')' => '('
  | ']' => '['
  | _ => '{'

/-- Match a closing bracket on line `line` with the innermost open one. -/
def closeBracket (line : Nat) (closing : Char) :
    List (Char × Nat) → Except SourceFault (List (Char × Nat))
  | [] => .error ⟨line, .unexpected closing⟩
  | (bracket, opened) :: outer =>
    if bracket = openingOf closing then .ok outer
    else .error ⟨line, .mismatched closing bracket opened⟩

/-! ## Every reader gives back an end of what it was given -/

theorem afterString_suffix {line after : Nat} {cs rest : List Char}
    (h : afterString line cs = some (after, rest)) : rest <:+ cs := by
  fun_induction afterString line cs with
  | case1 => simp at h
  | case2 => simp_all
  | case3 _ _ _ ih => exact ((ih h).trans (List.suffix_cons ..)).trans (List.suffix_cons ..)
  | case4 _ _ _ _ _ ih => exact (ih h).trans (List.suffix_cons ..)

theorem afterVerbatim_suffix {line after : Nat} {cs rest : List Char}
    (h : afterVerbatim line cs = some (after, rest)) : rest <:+ cs := by
  fun_induction afterVerbatim line cs with
  | case1 => simp at h
  | case2 _ _ ih => exact ((ih h).trans (List.suffix_cons ..)).trans (List.suffix_cons ..)
  | case3 => simp_all
  | case4 _ _ _ _ _ ih => exact (ih h).trans (List.suffix_cons ..)

theorem afterRaw_suffix {hashes line after : Nat} {cs rest : List Char}
    (h : afterRaw hashes line cs = some (after, rest)) : rest <:+ cs := by
  fun_induction afterRaw hashes line cs with
  | case1 => simp at h
  | case2 =>
    simp only [Option.some.injEq, Prod.mk.injEq] at h
    obtain ⟨-, rfl⟩ := h
    exact (List.drop_suffix ..).trans (List.suffix_cons ..)
  | case3 _ _ _ _ ih => exact (ih h).trans (List.suffix_cons ..)

theorem afterCharacter_suffix {line after : Nat} {cs rest : List Char}
    (h : afterCharacter line cs = some (after, rest)) : rest <:+ cs := by
  fun_induction afterCharacter line cs with
  | case1 => simp at h
  | case2 => simp at h
  | case3 => simp_all
  | case4 _ _ _ ih => exact ((ih h).trans (List.suffix_cons ..)).trans (List.suffix_cons ..)
  | case5 _ _ _ _ _ _ ih => exact (ih h).trans (List.suffix_cons ..)

/-- A block comment that ends is the text read, and the rest follows it. -/
theorem flatBlock_append {cs text rest : List Char}
    (h : flatBlock cs = some (text, rest)) : text ++ rest = cs := by
  fun_induction flatBlock cs generalizing text with
  | case1 => simp at h
  | case2 =>
    simp only [Option.some.injEq, Prod.mk.injEq] at h
    obtain ⟨rfl, rfl⟩ := h
    rfl
  | case3 _ _ _ ih =>
    simp only [Option.map_eq_some_iff, Prod.mk.injEq, Prod.exists] at h
    obtain ⟨a, b, hab, rfl, rfl⟩ := h
    simp [ih hab]

theorem nestedBlock_append {depth : Nat} {cs text rest : List Char}
    (h : nestedBlock depth cs = some (text, rest)) : text ++ rest = cs := by
  fun_induction nestedBlock depth cs generalizing text with
  | case1 => simp at h
  | case2 =>
    simp only [Option.some.injEq, Prod.mk.injEq] at h
    obtain ⟨rfl, rfl⟩ := h
    rfl
  | case3 _ _ ih | case4 _ _ ih | case5 _ _ _ _ _ _ ih =>
    simp only [Option.map_eq_some_iff, Prod.mk.injEq, Prod.exists] at h
    obtain ⟨a, b, hab, rfl, rfl⟩ := h
    simp [ih hab]

theorem blockRest_append {nested : Bool} {cs text rest : List Char}
    (h : blockRest nested cs = some (text, rest)) : text ++ rest = cs := by
  unfold blockRest at h
  split at h
  · exact nestedBlock_append h
  · exact flatBlock_append h

theorem literal_suffix {line : Nat} {problem : SourceProblem} {r : Option (Nat × List Char)}
    {s : Step} {cs : List Char} (hr : ∀ after rest, r = some (after, rest) → rest <:+ cs)
    (h : literal line problem r = .ok s) : s.rest <:+ cs := by
  unfold literal at h
  split at h
  · simp at h
  · rename_i after rest
    obtain rfl := Except.ok.inj h
    exact hr after rest rfl

theorem rawString_suffix {line : Nat} {cs : List Char} {s : Step}
    (h : rawString line cs = .ok s) : s.rest <:+ cs := by
  unfold rawString at h
  simp only at h
  split at h
  · rename_i rest hrest
    have hquote : '"' :: rest <:+ cs := hrest ▸ List.drop_suffix ..
    have hsuf : rest <:+ cs := (List.suffix_cons ..).trans hquote
    exact literal_suffix (fun _ _ e => (afterRaw_suffix e).trans hsuf) h
  · simp at h

theorem identifier_suffix {line : Nat} {c : Char} {cs : List Char} {s : Step}
    (h : identifier line c cs = .ok s) : s.rest <:+ cs := by
  have hdrop : cs.dropWhile Text.isNameChar <:+ cs := List.dropWhile_suffix _
  unfold identifier at h
  simp only at h
  split at h
  · split at h
    · exact (rawString_suffix h).trans hdrop
    · rename_i after hafter
      have hsuf : after <:+ cs := (List.suffix_cons '#' after).trans (hafter ▸ hdrop)
      split at h
      · exact (rawString_suffix h).trans hdrop
      · split at h
        · exact (rawString_suffix h).trans hdrop
        · obtain rfl := Except.ok.inj h
          exact hsuf
    · obtain rfl := Except.ok.inj h
      exact hdrop
  · obtain rfl := Except.ok.inj h
    exact hdrop

theorem characterOrLifetime_suffix {line : Nat} {cs : List Char} {s : Step}
    (h : characterOrLifetime line cs = .ok s) : s.rest <:+ cs := by
  unfold characterOrLifetime at h
  split at h
  · exact literal_suffix (fun _ _ e => afterCharacter_suffix e) h
  · split at h <;> obtain rfl := Except.ok.inj h
    · exact List.suffix_refl _
    · exact (List.suffix_cons ..).trans (List.suffix_cons ..)
  · obtain rfl := Except.ok.inj h
    exact List.suffix_refl _

theorem blockComment_suffix {nested : Bool} {line : Nat} {cs : List Char} {s : Step}
    (h : blockComment nested line cs = .ok s) : s.rest <:+ cs := by
  unfold blockComment at h
  split at h
  · simp at h
  · rename_i hb
    obtain rfl := Except.ok.inj h
    exact ⟨_, blockRest_append hb⟩

theorem step_suffix {nested : Bool} {line : Nat} {c : Char} {cs : List Char} {s : Step}
    (h : step nested line c cs = .ok s) : s.rest <:+ cs := by
  unfold step at h
  split at h
  · obtain rfl := Except.ok.inj h
    exact (List.dropWhile_suffix _).trans (List.suffix_cons ..)
  · exact (blockComment_suffix h).trans (List.suffix_cons ..)
  · exact literal_suffix (fun _ _ e => afterString_suffix e) h
  · exact characterOrLifetime_suffix h
  · exact literal_suffix (fun _ _ e => (afterVerbatim_suffix e).trans (List.suffix_cons ..)) h
  iterate 6
    obtain rfl := Except.ok.inj h
    exact List.suffix_refl _
  split at h
  · exact identifier_suffix h
  · split at h <;> obtain rfl := Except.ok.inj h
    · exact List.dropWhile_suffix _
    · exact List.suffix_refl _

/-! ## The whole text -/

/-- The comments of `cs`, which begins on line `line` inside the brackets `opened`,
the innermost first. -/
def scanFrom (nested : Bool) (line : Nat) (opened : List (Char × Nat)) (cs : List Char) :
    Except SourceFault (List Comment) :=
  match cs with
  | [] =>
    match opened with
    | [] => .ok []
    | (bracket, l) :: _ => .error ⟨l, .unclosed bracket⟩
  | c :: cs =>
    match h : step nested line c cs with
    | .error fault => .error fault
    | .ok s =>
      have : s.rest.length < cs.length + 1 := Nat.lt_succ_of_le (step_suffix h).length_le
      match s.item with
      | .code => scanFrom nested s.line opened s.rest
      | .comment k => (scanFrom nested s.line opened s.rest).map (k :: ·)
      | .opening bracket => scanFrom nested s.line ((bracket, line) :: opened) s.rest
      | .closing bracket =>
        match closeBracket line bracket opened with
        | .error fault => .error fault
        | .ok outer => scanFrom nested s.line outer s.rest
termination_by cs.length
decreasing_by all_goals exact this

/-- Block comments nest in the language that allows it. -/
def nestsComments (p : Path) : Bool := p.extension == some "rs"

def comments (p : Path) (text : String) : Except SourceFault (List Comment) :=
  scanFrom (nestsComments p) 1 [] text.toList

end Source
end CheckScript
