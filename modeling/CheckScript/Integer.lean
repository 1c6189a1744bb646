/-
Integers of fixed width, kept as exact integers with a range test, and their
decimal text.
-/
import CheckScript.Text.Letter

namespace CheckScript
namespace Integer

def least : Int := -9223372036854775808

def greatest : Int := 9223372036854775807

/-- The range of a script integer: 64 bits with a sign. -/
def fits (n : Int) : Bool := least ≤ n && n ≤ greatest

def digitValue (c : Char) : Nat := c.toNat - 48

/-- The value of a run of digits. -/
def ofDigits (cs : List Char) : Nat := cs.foldl (fun n c => 10 * n + digitValue c) 0

def natural? (cs : List Char) : Option Nat :=
  if !cs.isEmpty && cs.all Text.isDigit then some (ofDigits cs) else none

/-- A number of `bits` bits: digits, with a plus sign allowed before them. -/
def word? (bits : Nat) (cs : List Char) : Option Nat :=
  let digits := match cs with
    | '+' :: rest => rest
    | cs => cs
  (natural? digits).filter (· < Nat.pow 2 bits)

/-- A script integer: digits, with one sign allowed before them. -/
def signed? (cs : List Char) : Option Int :=
  let value := match cs with
    | '-' :: rest => (natural? rest).map fun n => -(n : Int)
    | '+' :: rest => (natural? rest).map fun n => (n : Int)
    | cs => (natural? cs).map fun n => (n : Int)
  value.filter fits

end Integer
end CheckScript
