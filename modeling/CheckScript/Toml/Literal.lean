/-
Strings and numbers of a TOML document.
-/
import CheckScript.Integer
import CheckScript.Text.Lines
import CheckScript.Toml.Table

namespace CheckScript
namespace Toml

/-- Characters that stand for themselves: no controls but the tab. -/
def isPlain (c : Char) : Bool := c == '\t' || (0x20 ≤ c.toNat && c.toNat != 0x7F)

def isSpace (c : Char) : Bool := c == ' ' || c == '\t'

def skipSpaces (cs : List Char) : List Char := cs.dropWhile isSpace

/-- What follows a line break. -/
def afterNewline : List Char → Option (List Char)
  | '\n' :: cs => some cs
  | '\r' :: '\n' :: cs => some cs
  | _ => none

def hexValue (c : Char) : Option Nat :=
  if Text.isDigit c then some (c.toNat - 48)
  else if 'a' ≤ c ∧ c ≤ 'f' then some (c.toNat - 87)
  else if 'A' ≤ c ∧ c ≤ 'F' then some (c.toNat - 55)
  else none

def hexNumber (cs : List Char) : Option Nat :=
  cs.foldl (fun n c => n.bind fun n => (hexValue c).map fun d => 16 * n + d) (some 0)

/-- The character with a number of `digits` hexadecimal digits. -/
def numbered (digits : Nat) (cs : List Char) : Option (Char × Nat) :=
  if cs.length < digits then none
  else
    match hexNumber (cs.take digits) with
    | none => none
    | some n => if n.isValidChar then some (Char.ofNat n, digits + 1) else none

/-- The character that an escape stands for, and the number of characters behind
the backslash. -/
def escaped : List Char → Option (Char × Nat)
  | 'b' :: _ => some ('\x08', 1)
  | 't' :: _ => some ('\t', 1)
  | 'n' :: _ => some ('\n', 1)
  | 'f' :: _ => some ('\x0c', 1)
  | 'r' :: _ => some ('\r', 1)
  | '"' :: _ => some ('"', 1)
  | '\\' :: _ => some ('\\', 1)
  | 'u' :: cs => numbered 4 cs
  | 'U' :: cs => numbered 8 cs
  | _ => none

/-- A string of one line behind its opening quote, and what follows the closing
one. -/
def basic (cs : List Char) : Option (List Char × List Char) :=
  match cs with
  | [] => none
  | '"' :: rest => some ([], rest)
  | '\\' :: rest =>
    match escaped rest with
    | none => none
    | some (c, n) =>
      have : (rest.drop n).length < rest.length + 1 := by simp only [List.length_drop]; omega
      (basic (rest.drop n)).map fun r => (c :: r.1, r.2)
  | c :: rest => if isPlain c then (basic rest).map fun r => (c :: r.1, r.2) else none
termination_by cs.length
decreasing_by
  · exact this
  · exact Nat.lt_succ_self _

def literal : List Char → Option (List Char × List Char)
  | [] => none
  | '\'' :: rest => some ([], rest)
  | c :: rest => if isPlain c then (literal rest).map fun r => (c :: r.1, r.2) else none

/-- The end of a string of several lines: up to two of the quotes before the
closing three belong to it. -/
def closeLines (quote : Char) (cs : List Char) : Option (List Char × List Char) :=
  let run := (cs.takeWhile (· == quote)).length
  if run < 3 then none
  else some (List.replicate (min (run - 3) 2) quote, cs.drop (min run 5))

def skipBlanks : List Char → List Char
  | '\n' :: cs => skipBlanks cs
  | '\r' :: '\n' :: cs => skipBlanks cs
  | c :: cs => if isSpace c then skipBlanks cs else c :: cs
  | [] => []

/-- What follows a backslash at the end of a line: the next text on the lines
below. -/
def continued (cs : List Char) : Option (List Char) :=
  match afterNewline (skipSpaces cs) with
  | none => none
  | some _ => some (skipBlanks cs)

/-- A string of several lines behind its opening quotes.  Its line breaks are
all newlines. -/
def basicLines (cs : List Char) : Option (List Char × List Char) :=
  match closeLines '"' cs with
  | some r => some r
  | none =>
    match cs with
    | [] => none
    | '\\' :: rest =>
      match continued rest with
      | some below =>
        if _h : below.length < rest.length + 1 then basicLines below else none
      | none =>
        match escaped rest with
        | none => none
        | some (c, n) =>
          have : (rest.drop n).length < rest.length + 1 := by simp only [List.length_drop]; omega
          (basicLines (rest.drop n)).map fun r => (c :: r.1, r.2)
    | '\n' :: rest => (basicLines rest).map fun r => ('\n' :: r.1, r.2)
    | '\r' :: '\n' :: rest => (basicLines rest).map fun r => ('\n' :: r.1, r.2)
    | c :: rest => if isPlain c then (basicLines rest).map fun r => (c :: r.1, r.2) else none
termination_by cs.length
decreasing_by
  · assumption
  · exact this
  · exact Nat.lt_succ_self _
  · exact Nat.lt_succ_of_lt (Nat.lt_succ_self _)
  · exact Nat.lt_succ_self _

def literalLines (cs : List Char) : Option (List Char × List Char) :=
  match closeLines '\'' cs with
  | some r => some r
  | none =>
    match cs with
    | [] => none
    | '\n' :: rest => (literalLines rest).map fun r => ('\n' :: r.1, r.2)
    | '\r' :: '\n' :: rest => (literalLines rest).map fun r => ('\n' :: r.1, r.2)
    | c :: rest => if isPlain c then (literalLines rest).map fun r => (c :: r.1, r.2) else none
termination_by cs.length

/-- A line break right behind the opening quotes is not part of the string. -/
def dropFirstBreak (cs : List Char) : List Char := (afterNewline cs).getD cs

/-- A string of any form at the front of `cs`. -/
def string (cs : List Char) : Option (List Char × List Char) :=
  match cs with
  | '"' :: '"' :: '"' :: rest => basicLines (dropFirstBreak rest)
  | '\'' :: '\'' :: '\'' :: rest => literalLines (dropFirstBreak rest)
  | '"' :: rest => basic rest
  | '\'' :: rest => literal rest
  | _ => none

/- Numbers. -/

/-- Digits without the underscores that may stand between them. -/
def ungrouped (digit : Char → Bool) : List Char → Option (List Char)
  | [] => none
  | [c] => if digit c then some [c] else none
  | c :: '_' :: cs => if digit c then (ungrouped digit cs).map (c :: ·) else none
  | c :: cs => if digit c then (ungrouped digit cs).map (c :: ·) else none

/-- Decimal digits as whole numbers have them: no zero before others. -/
def wholeDigits (cs : List Char) : Option (List Char) :=
  match cs with
  | '0' :: _ :: _ => none
  | cs => ungrouped Text.isDigit cs

def unsigned : List Char → List Char
  | '+' :: cs => cs
  | '-' :: cs => cs
  | cs => cs

def inBase (base : Nat) (cs : List Char) : Option Int :=
  let digit (c : Char) : Bool := ((hexValue c).map fun d => decide (d < base)).getD false
  (ungrouped digit cs).map fun ds =>
    (ds.foldl (fun n c => base * n + (hexValue c).getD 0) 0 : Nat)

def wholeNumber (cs : List Char) : Option Int :=
  let value := match cs with
    | '0' :: 'x' :: ds => inBase 16 ds
    | '0' :: 'o' :: ds => inBase 8 ds
    | '0' :: 'b' :: ds => inBase 2 ds
    | '-' :: ds => (wholeDigits ds).map fun ds => -(Integer.ofDigits ds : Int)
    | cs => (wholeDigits (unsigned cs)).map fun ds => (Integer.ofDigits ds : Int)
  value.filter Integer.fits

/-- Whether `cs` is a number with a fraction or an exponent, its sign removed. -/
def isFraction (cs : List Char) : Bool :=
  let power := cs.dropWhile fun c => c != 'e' && c != 'E'
  let digits := cs.takeWhile fun c => c != 'e' && c != 'E'
  let part := digits.dropWhile (· != '.')
  (wholeDigits (digits.takeWhile (· != '.'))).isSome &&
    (part.isEmpty || (ungrouped Text.isDigit (part.drop 1)).isSome) &&
    (power.isEmpty || (ungrouped Text.isDigit (unsigned (power.drop 1))).isSome) &&
    !(part.isEmpty && power.isEmpty)

/-- Whether a number with a fraction or an exponent lies so far up that the
nearest float of 64 bits is infinite.  The place of its first digit decides,
unless that is near the greatest float. -/
def isInfinite (cs : List Char) : Bool :=
  let isPower (c : Char) : Bool := c == 'e' || c == 'E'
  let plain := cs.filter (· != '_')
  let digits := plain.takeWhile fun c => !isPower c
  let fraction := (digits.dropWhile (· != '.')).drop 1
  let mantissa := Integer.ofDigits (digits.filter (· != '.'))
  let power := (plain.dropWhile fun c => !isPower c).drop 1
  let size : Int := Integer.ofDigits (unsigned power)
  let exponent := (if power.head? = some '-' then -size else size) - fraction.length
  let top := exponent + (digits.filter (· != '.')).length
  if mantissa = 0 ∨ top < 300 then false
  else if 0 ≤ exponent then
    if 400 < exponent then true
    else Nat.pow 2 1024 - Nat.pow 2 970 ≤ mantissa * Nat.pow 10 exponent.toNat
  else (Nat.pow 2 1024 - Nat.pow 2 970) * Nat.pow 10 (-exponent).toNat ≤ mantissa

/-- A fraction may be large or small without limit, but not infinite; the word
for infinity is a value, and so is a number far below zero. -/
def isFloat (cs : List Char) : Bool :=
  isFraction (unsigned cs) && (cs.head? = some '-' || !isInfinite (unsigned cs))

def isSpecial (cs : List Char) : Bool := cs == "inf".toList || cs == "nan".toList

/-- A number or truth value that makes up all of `cs`. -/
def scalar (cs : List Char) : Option Node :=
  if cs = "true".toList then some (.boolean true)
  else if cs = "false".toList then some (.boolean false)
  else
    match wholeNumber cs with
    | some n => some (.integer n)
    | none => if isSpecial (unsigned cs) || isFloat cs then some .fraction else none

end Toml
end CheckScript
