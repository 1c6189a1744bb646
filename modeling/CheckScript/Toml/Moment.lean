/-
Dates and times of a TOML document.  A reader here only tells where a date or
time ends, since no setting has one as its value.
-/
import CheckScript.Integer
import CheckScript.Text.Letter

namespace CheckScript
namespace Toml
namespace Moment

/-- A number of exactly `width` digits, and what follows. -/
def number (width : Nat) (cs : List Char) : Option (Nat × List Char) :=
  let digits := cs.take width
  if digits.length = width ∧ digits.all Text.isDigit then
    some (Integer.ofDigits digits, cs.drop width)
  else none

/-- Two digits for a number from `low` to `high`. -/
def field (low high : Nat) (cs : List Char) : Option (Nat × List Char) :=
  (number 2 cs).filter fun r => low ≤ r.1 && r.1 ≤ high

/-- What follows the character `c`. -/
def after (c : Char) : List Char → Option (List Char)
  | d :: cs => if d = c then some cs else none
  | [] => none

def isLeapYear (year : Nat) : Bool :=
  year % 4 == 0 && (year % 100 != 0 || year % 400 == 0)

def daysIn (year month : Nat) : Nat :=
  if month = 2 then (if isLeapYear year then 29 else 28)
  else if [4, 6, 9, 11].contains month then 30 else 31

/-- A year, a month and a day that the month has. -/
def date (cs : List Char) : Option (List Char) := do
  let (year, cs) ← number 4 cs
  let cs ← after '-' cs
  let (month, cs) ← field 1 12 cs
  let cs ← after '-' cs
  let (day, cs) ← field 1 31 cs
  if day ≤ daysIn year month then some cs else none

/-- What follows the fraction of a second: a point with digits behind it. -/
def skipFraction : List Char → List Char
  | '.' :: c :: cs => if Text.isDigit c then cs.dropWhile Text.isDigit else '.' :: c :: cs
  | cs => cs

/-- Hours, minutes and seconds.  A minute may end with a leap second. -/
def time (cs : List Char) : Option (List Char) := do
  let (_, cs) ← field 0 23 cs
  let cs ← after ':' cs
  let (_, cs) ← field 0 59 cs
  let cs ← after ':' cs
  let (_, cs) ← field 0 60 cs
  return skipFraction cs

/-- The distance from universal time, if one is given. -/
def zone : List Char → Option (List Char)
  | 'Z' :: cs | 'z' :: cs => some cs
  | '+' :: cs | '-' :: cs => do
    let (_, cs) ← field 0 23 cs
    let cs ← after ':' cs
    let (_, cs) ← field 0 59 cs
    some cs
  | cs => some cs

/-- What follows a date, a time or both.  A date may be followed by a blank that
starts no time. -/
def skip (cs : List Char) : Option (List Char) :=
  match date cs with
  | none => time cs
  | some rest =>
    match rest with
    | 'T' :: cs | 't' :: cs => (time cs).bind zone
    | ' ' :: cs => (time cs).elim (some rest) zone
    | rest => some rest

end Moment
end Toml
end CheckScript
