/-
Passing the time.
-/
import CheckScript.Outside.Shell.Program.FileWork

namespace CheckScript
namespace Shell
namespace Job

/-- Digits behind a point as thousandths. -/
def thousandths (fraction : Bytes) : Nat :=
  ((fraction ++ ['0', '0', '0']).take 3).foldl (fun n c => 10 * n + (c.toNat - 48)) 0

/-- The milliseconds in a text, if it is a time: digits with a fraction, and a unit. -/
def interval? (b : Bytes) : Option Nat :=
  let unit? : Option Nat := match b.getLast? with
    | some 'm' => some 60
    | some 'h' => some 3600
    | some 'd' => some 86400
    | some 's' => some 1
    | some c => if isDigit c || c == '.' then some 1 else none
    | none => none
  let digits :=
    if (b.getLast?.map isDigit).getD true || b.getLast? = some '.' then b else b.dropLast
  let whole := digits.takeWhile isDigit
  let rest := digits.drop whole.length
  let isNumber := match rest with
    | [] => !whole.isEmpty
    | '.' :: fraction => fraction.all isDigit && !(whole.isEmpty && fraction.isEmpty)
    | _ => false
  if b = "infinity".toList ∨ b = "inf".toList then some (Nat.pow 2 60)
  else if isNumber then
    unit?.map fun u => u * (1000 * (natural? whole).getD 0 + thousandths (rest.drop 1))
  else none

/-- The longest sleep that somebody else still waits for. -/
def maxPatience : Nat := 10000

/-- Time passes at once, unless others wait for the output in the meantime. -/
def sleep : Job Unit := do
  let g ← given 1 "" "" []
  if g.operands.isEmpty then usage 1 "missing operand".toList
  let bad := g.operands.filter fun b => (interval? b).isNone
  if !bad.isEmpty then
    bad |> eachOf fun b => warn 1 ("invalid time interval ".toList ++ Quoting.always b)
    hint
    quit 1
  let total := (g.operands.filterMap interval?).foldl (· + ·) 0
  if maxPatience < total then awaitEnd

end Job
end Shell
end CheckScript
