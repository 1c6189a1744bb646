/-
What a source is made of.

Read from its beginning, a source is one part behind another: comments, literals, brackets,
names, numbers, and single characters that begin none of these.  Each kind of part has a rule
for what it may hold and a rule for what may stand behind it (`Part.Stands`).  The rules look at
the text alone, so they say what comments and literals are without the scanner; that it follows
them is proved apart from them.
-/
import CheckScript.Proofs.Text.Lines
import CheckScript.Proofs.Text.Runs
import CheckScript.Source.Scan

namespace CheckScript
namespace Source

open Text (Ends IsRun)

/-! ## The insides of literals and comments -/

/-- Characters of a literal with backslash escapes: a backslash takes the character behind it
along, and all others are plain. -/
inductive Escaped (plain : Char → Prop) : List Char → Prop where
  | nil : Escaped plain []
  | escape (c : Char) {cs : List Char} (h : Escaped plain cs) : Escaped plain ('\\' :: c :: cs)
  | plain {c : Char} {cs : List Char} (hc : plain c) (hslash : c ≠ '\\') (h : Escaped plain cs) :
    Escaped plain (c :: cs)

/-- A quote ends a literal, and a line end is never in a character literal. -/
def InString (c : Char) : Prop := c ≠ '"'

def InCharacter (c : Char) : Prop := c ≠ '\'' ∧ c ≠ '\n'

/-- Characters of a verbatim literal: quotes stand in pairs. -/
inductive Doubled : List Char → Prop where
  | nil : Doubled []
  | quotes {cs : List Char} (h : Doubled cs) : Doubled ('"' :: '"' :: cs)
  | plain {c : Char} {cs : List Char} (hc : c ≠ '"') (h : Doubled cs) : Doubled (c :: cs)

def hashSigns (n : Nat) : List Char := List.replicate n '#'

/-- What ends a raw literal that was opened with `hashes` hash signs. -/
def rawEnd (hashes : Nat) : List Char := '"' :: hashSigns hashes

def blockEnd : List Char := ['*', '/']

/-- A block comment behind its opening sign, where comments nest: openers and closers are in
balance, and the last closer is the end. -/
inductive Nested : List Char → Prop where
  | close : Nested blockEnd
  | inner {inner rest : List Char} (hinner : Nested inner) (hrest : Nested rest) :
    Nested ('/' :: '*' :: (inner ++ rest))
  | plain {c : Char} {rest : List Char} (hopen : c = '/' → rest.head? ≠ some '*')
    (hclose : c = '*' → rest.head? ≠ some '/') (hrest : Nested rest) : Nested (c :: rest)

/-- What may stand between the signs of a block comment.  Where comments do not nest it is all
but a closer. -/
def BlockBody (nested : Bool) (body : List Char) : Prop :=
  if nested then Nested (body ++ blockEnd) else ¬blockEnd <:+: body

/-! ## Parts -/

inductive Part where
  | lineComment (body : List Char)
  | blockComment (body : List Char)
  | string (body : List Char)
  | verbatim (body : List Char)
  | raw (mark : List Char) (hashes : Nat) (body : List Char)
  | character (c : Char)
  | escapedCharacter (body : List Char)
  /-- The quote in front of a lifetime or a label. -/
  | quote
  | name (cs : List Char)
  /-- What announces a name that could be taken for something else. -/
  | nameMark (mark : List Char)
  | number (cs : List Char)
  | opening (bracket : Char)
  | closing (bracket : Char)
  | other (c : Char)

def openings : List Char := ['(', '[', '{']

def closings : List Char := [')', ']', '}']

/-- The signs that begin a part by themselves, whatever stands behind them. -/
def signs : List Char := '"' :: '\'' :: (openings ++ closings)

namespace Part

def text : Part → List Char
  | lineComment body => '/' :: '/' :: body
  | blockComment body => '/' :: '*' :: (body ++ blockEnd)
  | string body => '"' :: (body ++ ['"'])
  | verbatim body => '@' :: '"' :: (body ++ ['"'])
  | raw mark hashes body => mark ++ (hashSigns hashes ++ '"' :: (body ++ rawEnd hashes))
  | character c => ['\'', c, '\'']
  | escapedCharacter body => '\'' :: (body ++ ['\''])
  | quote => ['\'']
  | name cs => cs
  | nameMark mark => mark ++ ['#']
  | number cs => cs
  | opening bracket => [bracket]
  | closing bracket => [bracket]
  | other c => [c]

/-- The part is made as its kind asks. -/
def Sound (nested : Bool) : Part → Prop
  | lineComment body => '\n' ∉ body
  | blockComment body => BlockBody nested body
  | string body => Escaped InString body
  | verbatim body => Doubled body
  | raw mark hashes body => isRawMark mark = true ∧ ¬rawEnd hashes <:+: body
  | character c => c ≠ '\\' ∧ c ≠ '\n'
  | escapedCharacter body => body.head? = some '\\' ∧ Escaped InCharacter body
  | quote => True
  | name cs => IsRun Text.isNameStart Text.isNameChar cs
  | nameMark mark => isRawMark mark = true
  | number cs => IsRun Text.isDigit isNumberChar cs
  | opening bracket => bracket ∈ openings
  | closing bracket => bracket ∈ closings
  | other c => c ∉ signs ∧ Text.isNameStart c = false ∧
      Text.isDigit c = false

/-- The part ends in front of `rest`: all of it is there, and it is not the beginning of
something else. -/
def EndsAt (rest : List Char) : Part → Prop
  | lineComment _ => Ends (· != '\n') rest
  | verbatim _ => rest.head? ≠ some '"'
  | quote => rest.head? ≠ some '\\' ∧ (rest.tail.head? = some '\'' → rest.head? = some '\n')
  | name cs => Ends Text.isNameChar rest ∧
      (isRawMark cs = true → rest.head? ≠ some '"' ∧ rest.head? ≠ some '#')
  | nameMark _ => ∃ c, rest.head? = some c ∧ c ≠ '"' ∧ c ≠ '#'
  | number _ => Ends isNumberChar rest
  | other c => (c = '/' → rest.head? ≠ some '/' ∧ rest.head? ≠ some '*') ∧
      (c = '@' → rest.head? ≠ some '"')
  | _ => True

/-- The part stands in front of `rest`. -/
structure Stands (nested : Bool) (rest : List Char) (p : Part) : Prop where
  sound : p.Sound nested
  endsAt : p.EndsAt rest

end Part

/-- The text `cs` begins with these parts, one behind another, and `rest` is what is left of
it. -/
inductive Composed (nested : Bool) : List Char → List Part → List Char → Prop where
  | nil (cs : List Char) : Composed nested cs [] cs
  | cons {p : Part} {ps : List Part} {cs rest : List Char} (hp : p.Stands nested cs)
    (hps : Composed nested cs ps rest) : Composed nested (p.text ++ cs) (p :: ps) rest

namespace Composed

theorem append {nested : Bool} {as bs cs : List Char} {ps qs : List Part}
    (h : Composed nested as ps bs) (k : Composed nested bs qs cs) :
    Composed nested as (ps ++ qs) cs := by
  induction h with
  | nil => exact k
  | cons hp _ ih => exact .cons hp (ih k)

theorem text_eq {nested : Bool} {cs rest : List Char} {ps : List Part}
    (h : Composed nested cs ps rest) : cs = ps.flatMap Part.text ++ rest := by
  induction h with
  | nil => rfl
  | cons _ _ ih => rw [List.flatMap_cons, List.append_assoc, ← ih]

end Composed

/-! ## What a source shows -/

namespace Part

/-- The comment that the part is, if it begins on line `line`.  A carriage return at the end of
its line does not belong to a line comment. -/
def comments (line : Nat) : Part → List Comment
  | lineComment body =>
    let text := '/' :: '/' :: Text.dropReturn body
    [⟨Comment.lineKind text, text, line, line⟩]
  | blockComment body =>
    let text := '/' :: '*' :: (body ++ blockEnd)
    [⟨Comment.blockKind text, text, line, line + Text.newlines text⟩]
  | _ => []

/-- The bracket that the part is, with its line. -/
def brackets (line : Nat) : Part → List (Char × Nat)
  | opening bracket => [(bracket, line)]
  | closing bracket => [(bracket, line)]
  | _ => []

end Part

/-- All that is shown along a text, if the text of `b` shows `found line b` where it begins on
line `line`. -/
def gather {α β : Type} (text : β → List Char) (found : Nat → β → List α) (line : Nat) :
    List β → List α
  | [] => []
  | b :: bs => found line b ++ gather text found (line + Text.newlines (text b)) bs

theorem gather_append {α β : Type} (text : β → List Char) (found : Nat → β → List α) (line : Nat)
    (as bs : List β) :
    gather text found line (as ++ bs) =
      gather text found line as ++
        gather text found (line + Text.newlines (as.flatMap text)) bs := by
  induction as generalizing line with
  | nil => rfl
  | cons a as ih =>
    rw [List.cons_append, gather, gather, ih, List.flatMap_cons, Text.newlines_append,
      List.append_assoc, Nat.add_assoc]

/-- The comments of parts of which the first begins on line `line`. -/
def commentsFrom : Nat → List Part → List Comment := gather Part.text Part.comments

/-- The brackets that stand in code, outside of comments and literals, with their lines. -/
def bracketsFrom : Nat → List Part → List (Char × Nat) := gather Part.text Part.brackets

theorem commentsFrom_cons (line : Nat) (p : Part) (ps : List Part) :
    commentsFrom line (p :: ps) =
      p.comments line ++ commentsFrom (line + Text.newlines p.text) ps := rfl

theorem bracketsFrom_cons (line : Nat) (p : Part) (ps : List Part) :
    bracketsFrom line (p :: ps) =
      p.brackets line ++ bracketsFrom (line + Text.newlines p.text) ps := rfl

end Source
end CheckScript
