/-
Spans of time and their text.
-/

namespace CheckScript

structure Duration where
  nanos : Nat
deriving DecidableEq, Repr

namespace Duration

def zero : Duration := ⟨0⟩

def ofSeconds (n : Nat) : Duration := ⟨n * 1000000000⟩

def ofMillis (n : Nat) : Duration := ⟨n * 1000000⟩

def add (d e : Duration) : Duration := ⟨d.nanos + e.nanos⟩

/-- The time that has passed at `d` since `e`. -/
def since (d e : Duration) : Duration := ⟨d.nanos - e.nanos⟩

/-- Whether a clock can tell the time.  Its seconds are signed words of 64 bits. -/
def isTellable (d : Duration) : Bool := d.nanos < Nat.pow 2 63 * 1000000000

/-- The last `places` decimal digits of `n`, leading zeros kept. -/
def lastDigits : Nat → Nat → List Char
  | 0, _ => []
  | places + 1, n => lastDigits places (n / 10) ++ [Char.ofNat (48 + n % 10)]

/-- Digits after the point, without the zeros at their end and without a point
that nothing would follow. -/
def fraction (places n : Nat) : String :=
  let digits := ((lastDigits places n).reverse.dropWhile (· == '0')).reverse
  if digits.isEmpty then "" else "." ++ String.ofList digits

def inUnit (nanos places : Nat) (unit : String) : String :=
  toString (nanos / Nat.pow 10 places) ++ fraction places nanos ++ unit

/-- The largest unit of which the span holds one, with as many decimal places as
it needs. -/
def text (d : Duration) : String :=
  if Nat.pow 10 9 ≤ d.nanos then inUnit d.nanos 9 "s"
  else if Nat.pow 10 6 ≤ d.nanos then inUnit d.nanos 6 "ms"
  else if Nat.pow 10 3 ≤ d.nanos then inUnit d.nanos 3 "µs"
  else inUnit d.nanos 0 "ns"

end Duration
end CheckScript
