/-
Text as programs pass it to one another: bytes, which need not be UTF-8.  A byte
is written as the character with its number, so that ASCII reads as itself.
-/

namespace CheckScript

/-- Characters below 256, one for each byte. -/
abbrev Bytes := List Char

namespace Bytes

def ofArray (a : ByteArray) : Bytes := a.toList.map fun b => Char.ofNat b.toNat

def toArray (b : Bytes) : ByteArray := ⟨(b.map fun c => UInt8.ofNat c.toNat).toArray⟩

def ofText (s : String) : Bytes := ofArray s.toUTF8

/-- The text in UTF-8, if it is that. -/
def text? (b : Bytes) : Option String := String.fromUTF8? (toArray b)

/-- What the first byte of a character above ASCII asks for: how many bytes
follow it, and the range of the next of them. -/
def lead? (n : Nat) : Option (Nat × Nat × Nat) :=
  if 0xC2 ≤ n ∧ n ≤ 0xDF then some (1, 0x80, 0xBF)
  else if n = 0xE0 then some (2, 0xA0, 0xBF)
  else if n = 0xED then some (2, 0x80, 0x9F)
  else if 0xE1 ≤ n ∧ n ≤ 0xEF then some (2, 0x80, 0xBF)
  else if n = 0xF0 then some (3, 0x90, 0xBF)
  else if n = 0xF4 then some (3, 0x80, 0x8F)
  else if 0xF1 ≤ n ∧ n ≤ 0xF3 then some (3, 0x80, 0xBF)
  else none

/-- Read the bytes that follow the first.  The answer is the code point, unless
one of them is missing, and the number of bytes that belong together. -/
def follow (more low high code used : Nat) : Bytes → Option Nat × Nat
  | [] => if more = 0 then (some code, used) else (none, used)
  | c :: cs =>
    if more = 0 then (some code, used)
    else if low ≤ c.toNat ∧ c.toNat ≤ high then
      follow (more - 1) 0x80 0xBF (64 * code + c.toNat % 64) (used + 1) cs
    else (none, used)

def replacement : Char := Char.ofNat 0xFFFD

/-- The order of lists of bytes, each before its continuations. -/
def noLater (a b : Bytes) : Bool := !b.lex a

/-- The text in UTF-8.  Bytes that are no character become one replacement
character for each longest start of one. -/
def decode : Bytes → List Char
  | [] => []
  | c :: cs =>
    let n := c.toNat
    if n < 0x80 then c :: decode cs
    else
      match lead? n with
      | none => replacement :: decode cs
      | some (more, low, high) =>
        let r := follow more low high (n % Nat.pow 2 (6 - more)) 0 cs
        (r.1.map Char.ofNat).getD replacement :: decode (cs.drop r.2)
termination_by b => b.length
decreasing_by all_goals simp only [List.length_drop, List.length_cons]; omega

def text (b : Bytes) : String := String.ofList (decode b)

/-- The decimal digits of a number. -/
def ofNat (n : Nat) : Bytes := (toString n).toList

def ofInt (n : Int) : Bytes := (toString n).toList

/-- Join pieces with a separator between them. -/
def join (separator : Bytes) : List Bytes → Bytes
  | [] => []
  | [b] => b
  | b :: bs => b ++ separator ++ join separator bs

end Bytes
end CheckScript
