/-
Patterns of file names and of other words: a star stands for any text, a
question mark for any character, brackets for one of those that they list.
-/
import CheckScript.Outside.Shell.Syntax

namespace CheckScript
namespace Shell

/-- A character of a pattern, and whether it stands for itself only. -/
abbrev PatternChar := Char × Bool

/-- What brackets list: ranges of characters and named classes. -/
inductive ListedChars where
  | range (low high : Char)
  | named (name : Bytes)
deriving DecidableEq, Repr

inductive PatternItem where
  | one (c : Char)
  | any
  | rest
  | listed (negated : Bool) (members : List ListedChars)
deriving DecidableEq, Repr

abbrev Pattern := List PatternItem

namespace Pattern

/-- The named classes, of ASCII characters. -/
def inClass (name : Bytes) (c : Char) : Bool :=
  let isUpper := 'A' ≤ c && c ≤ 'Z'
  let isLower := 'a' ≤ c && c ≤ 'z'
  let isGraph := '!' ≤ c && c ≤ '~'
  match String.ofList name with
  | "alpha" => isUpper || isLower
  | "digit" => isDigit c
  | "alnum" => isUpper || isLower || isDigit c
  | "upper" => isUpper
  | "lower" => isLower
  | "space" => c == ' ' || ('\t' ≤ c && c ≤ '\r')
  | "blank" => c == ' ' || c == '\t'
  | "punct" => isGraph && !isUpper && !isLower && !isDigit c
  | "print" => isGraph || c == ' '
  | "graph" => isGraph
  | "cntrl" => c.toNat < 32 || c.toNat == 127
  | "xdigit" => isDigit c || ('a' ≤ c && c ≤ 'f') || ('A' ≤ c && c ≤ 'F')
  | _ => false

end Pattern

def ListedChars.accepts (c : Char) : ListedChars → Bool
  | range low high => low ≤ c && c ≤ high
  | named name => Pattern.inClass name c

namespace Pattern

def accepts (c : Char) : PatternItem → Bool
  | .one d => c == d
  | .any | .rest => true
  | .listed negated members => (members.any (ListedChars.accepts c)) != negated

/-- Whether all of a text fits a pattern. -/
def fits : Pattern → Bytes → Bool
  | [], cs => cs.isEmpty
  | .rest :: ps, [] => fits ps []
  | .rest :: ps, c :: cs => fits ps (c :: cs) || fits (.rest :: ps) cs
  | _ :: _, [] => false
  | p :: ps, c :: cs => accepts c p && fits ps cs
termination_by ps cs => ps.length + cs.length

/-- The name of a class behind its opening sign, and what follows it. -/
def className (name : Bytes) : List PatternChar → Option (Bytes × List PatternChar)
  | (':', _) :: (']', _) :: cs => some (name.reverse, cs)
  | (c, _) :: cs => className (c :: name) cs
  | [] => none

/-- What brackets list up to the closing one.  A closing bracket that comes first
is listed itself. -/
def members (isFirst : Bool) (cs : List PatternChar) :
    Option (List ListedChars × List PatternChar) :=
  match cs with
  | [] => none
  | (c, quoted) :: rest =>
    if c = ']' ∧ !quoted ∧ !isFirst then some ([], rest)
    else
      let one : Option (ListedChars × Nat) := match c, quoted, rest with
        | '[', false, (':', false) :: named =>
          (className [] named).map fun r => (.named r.1, named.length + 1 - r.2.length)
        | _, _, ('-', false) :: (d, q) :: _ =>
          if d = ']' ∧ !q then none else some (.range c d, 2)
        | _, _, _ => none
      let (listed, used) := one.getD (.range c c, 0)
      have : (rest.drop used).length < rest.length + 1 := by simp only [List.length_drop]; omega
      (members false (rest.drop used)).map fun r => (listed :: r.1, r.2)
termination_by cs.length
decreasing_by exact this

/-- Read a pattern.  Brackets that are not closed stand for themselves, and a
backslash makes the next character do so. -/
def ofChars (cs : List PatternChar) : Pattern :=
  match cs with
  | [] => []
  | (c, true) :: cs => .one c :: ofChars cs
  | ('*', false) :: cs => .rest :: ofChars cs
  | ('?', false) :: cs => .any :: ofChars cs
  | ('\\', false) :: (c, _) :: cs => .one c :: ofChars cs
  | ('[', false) :: cs =>
    let negated := match cs with
      | ('!', false) :: _ => true
      | _ => false
    match members true (if negated then cs.drop 1 else cs) with
    | none => .one '[' :: ofChars cs
    | some (listed, rest) =>
      if _h : rest.length < cs.length + 1 then .listed negated listed :: ofChars rest
      else [.one '[']
  | (c, false) :: cs => .one c :: ofChars cs
termination_by cs.length

/-- The text that a pattern is, if it fits no other. -/
def plain? : Pattern → Option Bytes
  | [] => some []
  | .one c :: ps => (plain? ps).map (c :: ·)
  | _ :: _ => none

/-- The shortest or longest front of a text that fits, by what it leaves. -/
def dropStart (p : Pattern) (longest : Bool) (cs : Bytes) : Bytes :=
  let sizes := List.range (cs.length + 1)
  let order := if longest then sizes.reverse else sizes
  match order.find? fun n => p.fits (cs.take n) with
  | some n => cs.drop n
  | none => cs

/-- The same at the end of the text. -/
def dropEnd (p : Pattern) (longest : Bool) (cs : Bytes) : Bytes :=
  let sizes := List.range (cs.length + 1)
  let order := if longest then sizes else sizes.reverse
  match order.find? fun n => p.fits (cs.drop n) with
  | some n => cs.take n
  | none => cs

end Pattern
end Shell
end CheckScript
