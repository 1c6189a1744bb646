/-
Script text as words.  Each reader takes the place and the text where it
begins and gives the place and the text behind what it read.
-/
import CheckScript.Integer
import CheckScript.Script.Diagnostic
import CheckScript.Text.Letter

namespace CheckScript
namespace Script

/-- Go to the end of the line; the newline is not passed. -/
def skipLine (p : Position) : List Char → Position × List Char
  | [] => (p, [])
  | c :: rest => if c = '\n' then (p, c :: rest) else skipLine (p.next c) rest

/-- Go behind the end of a comment; without an end, to the end of the text. -/
def skipComment (p : Position) : List Char → Bool × Position × List Char
  | [] => (false, p, [])
  | '*' :: '/' :: rest => (true, (p.next '*').next '/', rest)
  | c :: rest => skipComment (p.next c) rest

/-- The character that an escape stands for. -/
def unescape : Char → Option Char
  | 'n' => some '\n'
  | 't' => some '\t'
  | 'r' => some '\r'
  | '0' => some '\x00'
  | '"' => some '"'
  | '\\' => some '\\'
  | _ => none

/-- A string literal, as far as it goes. -/
structure StringRead where
  value : List Char
  diagnostics : List Diagnostic
  closed : Bool
  place : Position
  rest : List Char

/-- A literal ends on its own line, escaped newlines apart.  An unknown escape
is reported at its letter and adds nothing to the value. -/
def readString (p : Position) : List Char → StringRead
  | [] => ⟨[], [], false, p, []⟩
  | '\n' :: rest => ⟨[], [], false, p, '\n' :: rest⟩
  | '"' :: rest => ⟨[], [], true, p.next '"', rest⟩
  | ['\\'] => ⟨[], [], false, p.next '\\', []⟩
  | '\\' :: c :: rest =>
    let q := (p.next '\\').next c
    let r := readString q rest
    match unescape c with
    | some d => { r with value := d :: r.value }
    | none =>
      { r with diagnostics := ⟨⟨q.line, q.column - 1⟩, .unknownEscape c⟩ :: r.diagnostics }
  | c :: rest =>
    let r := readString (p.next c) rest
    { r with value := c :: r.value }

def isDigitOrGap (c : Char) : Bool := Text.isDigit c || c == '_'

/-- One stretch of text: a word, or blanks and comments that are none. -/
structure Stretch where
  token : Option Token
  diagnostics : List Diagnostic
  place : Position
  rest : List Char

namespace Stretch

def word (kind : TokenKind) (p q : Position) (rest : List Char) : Stretch :=
  ⟨some ⟨kind, p⟩, [], q, rest⟩

def bad (problem : Problem) (p q : Position) (rest : List Char) : Stretch :=
  ⟨none, [⟨p, problem⟩], q, rest⟩

def blank (q : Position) (rest : List Char) : Stretch := ⟨none, [], q, rest⟩

end Stretch

def readBlockComment (p : Position) (cs : List Char) : Stretch :=
  match skipComment ((p.next '/').next '*') cs with
  | (true, q, rest) => .blank q rest
  | (false, q, rest) => .bad .openComment p q rest

def readStringWord (p : Position) (cs : List Char) : Stretch :=
  let r := readString (p.next '"') cs
  if r.closed then ⟨some ⟨.str (String.ofList r.value), p⟩, r.diagnostics, r.place, r.rest⟩
  else ⟨none, r.diagnostics ++ [⟨p, .openString⟩], r.place, r.rest⟩

/-- Underscores may stand between the digits. -/
def readNumber (p : Position) (c : Char) (cs : List Char) : Stretch :=
  let more := cs.takeWhile isDigitOrGap
  let rest := cs.dropWhile isDigitOrGap
  let q := (p.next c).after more
  let digits := c :: more.filter Text.isDigit
  if Integer.fits (Integer.ofDigits digits) then .word (.int (Integer.ofDigits digits)) p q rest
  else .bad (.integerTooLarge digits) p q rest

def readName (p : Position) (c : Char) (cs : List Char) : Stretch :=
  let more := cs.takeWhile Text.isNameChar
  .word (.ofWord (String.ofList (c :: more))) p ((p.next c).after more)
    (cs.dropWhile Text.isNameChar)

/-- The punctuation and operators of one character. -/
def simpleWord : Char → Option TokenKind
  | '(' => some .leftParen
  | ')' => some .rightParen
  | '{' => some .leftBrace
  | '}' => some .rightBrace
  | '[' => some .leftBracket
  | ']' => some .rightBracket
  | ',' => some .comma
  | ';' => some .semicolon
  | '.' => some .dot
  | '+' => some .plus
  | '-' => some .minus
  | '*' => some .star
  | '/' => some .slash
  | '%' => some .percent
  | '=' => some .equal
  | '!' => some .bang
  | '<' => some .less
  | '>' => some .greater
  | _ => none

/-- The operators of two characters. -/
def doubleWord : Char → Char → Option TokenKind
  | '=', '=' => some .equalEqual
  | '!', '=' => some .bangEqual
  | '<', '=' => some .lessEqual
  | '>', '=' => some .greaterEqual
  | '&', '&' => some .ampAmp
  | '|', '|' => some .pipePipe
  | _, _ => none

def isScriptBlank (c : Char) : Bool := c == ' ' || c == '\r' || c == '\t' || c == '\n'

/-- Read what begins with `c` at `p`.  The longer of two operators wins. -/
def stretch (p : Position) (c : Char) (cs : List Char) : Stretch :=
  match c, cs with
  | '/', '/' :: rest =>
    let r := skipLine ((p.next '/').next '/') rest
    .blank r.1 r.2
  | '/', '*' :: rest => readBlockComment p rest
  | '"', cs => readStringWord p cs
  | c, cs =>
    if isScriptBlank c then .blank (p.next c) cs
    else if Text.isDigit c then readNumber p c cs
    else if Text.isNameStart c then readName p c cs
    else
      match cs.head?.bind (doubleWord c) with
      | some kind => .word kind p ((p.next c).after (cs.take 1)) (cs.drop 1)
      | none =>
        match simpleWord c with
        | some kind => .word kind p (p.next c) cs
        | none => .bad (.unexpectedCharacter c) p (p.next c) cs

/-! ## Every reader gives back an end of what it was given -/

theorem skipLine_suffix (p : Position) (cs : List Char) : (skipLine p cs).2 <:+ cs := by
  induction cs generalizing p with
  | nil => exact List.suffix_refl _
  | cons c rest ih =>
    unfold skipLine
    split
    · exact List.suffix_refl _
    · exact (ih _).trans (List.suffix_cons ..)

theorem skipComment_suffix (p : Position) (cs : List Char) : (skipComment p cs).2.2 <:+ cs := by
  fun_induction skipComment p cs with
  | case1 => exact List.suffix_refl _
  | case2 => exact (List.suffix_cons ..).trans (List.suffix_cons ..)
  | case3 _ _ _ _ ih => exact ih.trans (List.suffix_cons ..)

theorem readString_suffix (p : Position) (cs : List Char) : (readString p cs).rest <:+ cs := by
  fun_induction readString p cs with
  | case1 | case2 => exact List.suffix_refl _
  | case3 | case4 => exact List.suffix_cons ..
  | case5 _ _ _ _ _ _ _ ih | case6 _ _ _ _ _ _ ih =>
    exact (ih.trans (List.suffix_cons ..)).trans (List.suffix_cons ..)
  | case7 _ _ _ _ _ _ _ _ ih => exact ih.trans (List.suffix_cons ..)

theorem readBlockComment_suffix (p : Position) (cs : List Char) :
    (readBlockComment p cs).rest <:+ cs := by
  have hs := skipComment_suffix ((p.next '/').next '*') cs
  unfold readBlockComment
  split <;> rename_i h <;> rw [h] at hs <;> exact hs

theorem stretch_suffix (p : Position) (c : Char) (cs : List Char) :
    (stretch p c cs).rest <:+ cs := by
  unfold stretch
  split
  · exact (skipLine_suffix ..).trans (List.suffix_cons ..)
  · exact (readBlockComment_suffix ..).trans (List.suffix_cons ..)
  · unfold readStringWord
    simp only
    split <;> exact readString_suffix ..
  · split
    · exact List.suffix_refl _
    · split
      · unfold readNumber
        simp only
        split <;> exact List.dropWhile_suffix _
      · split
        · exact List.dropWhile_suffix _
        · split
          · exact List.drop_suffix ..
          · split <;> exact List.suffix_refl _

/-! ## The whole text -/

def tokensFrom (p : Position) (cs : List Char) : List Token × List Diagnostic :=
  match cs with
  | [] => ([⟨.finish, p⟩], [])
  | c :: cs =>
    let s := stretch p c cs
    let r := tokensFrom s.place s.rest
    (s.token.toList ++ r.1, s.diagnostics ++ r.2)
termination_by cs.length
decreasing_by exact Nat.lt_succ_of_le (stretch_suffix p c cs).length_le

/-- The words of a script with the mark of its end, and what is wrong with the
text between them. -/
def tokenize (text : String) : List Token × List Diagnostic := tokensFrom .start text.toList

end Script
end CheckScript
