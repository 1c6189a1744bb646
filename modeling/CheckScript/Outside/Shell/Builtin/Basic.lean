/-
Commands of the shell itself: what they are given, and how they read options and
numbers.
-/
import CheckScript.Outside.Shell.Launch

namespace CheckScript
namespace Shell

/-- What the commands of the shell build on: the programs around it, and the rule
for commands that stand in commands.  In a tested command a failure is expected,
so that it does not end the shell. -/
structure Rules where
  programs : List Program
  evaluate : Bool → Command → Run Unit

/-- A command of the shell itself.  The faults of a special one end the shell, and
assignments before it last.  The arguments of some are read as assignments. -/
structure Builtin where
  name : String
  special : Bool
  assigns : Bool
  action : Rules → Bool → List Bytes → Run Nat

namespace Builtin

def ofRegular (name : String) (action : List Bytes → Run Nat) : Builtin :=
  ⟨name, false, false, fun _ _ => action⟩

def ofSpecial (name : String) (action : List Bytes → Run Nat) : Builtin :=
  ⟨name, true, false, fun _ _ => action⟩

end Builtin

namespace Run

/-- Write to the output.  A fault is noted. -/
def say (b : Bytes) : Run Unit := do
  if !b.isEmpty then
    match ← write 1 b with
    | none => return ()
    | some _ => modify fun m => { m with failedWrite := true }

def sayLine (b : Bytes) : Run Unit := say (b ++ ['\n'])

/-- The options in front of the arguments, of the letters that are known; those in
`valued` take a value. -/
def options (flags valued : String) : Nat → List Bytes → Run (List (Char × Bytes) × List Bytes)
  | 0, words => return ([], words)
  | fuel + 1, words =>
    match words with
    | ['-', '-'] :: rest => return ([], rest)
    | ('-' :: c :: cs) :: rest =>
      if valued.toList.contains c then
        match cs, rest with
        | [], [] => failWith (s!"No arg for -{String.singleton c} option".toList)
        | [], value :: rest => do
          let r ← options flags valued fuel rest
          return ((c, value) :: r.1, r.2)
        | value, rest => do
          let r ← options flags valued fuel rest
          return ((c, value) :: r.1, r.2)
      else if flags.toList.contains c then do
        let rest := if cs.isEmpty then rest else ('-' :: cs) :: rest
        let r ← options flags valued fuel rest
        return ((c, []) :: r.1, r.2)
      else failWith (s!"Illegal option -{String.singleton c}".toList)
    | words => return ([], words)

/-- Read options; every letter takes a step at most. -/
def given (flags valued : String) (words : List Bytes) : Run (List (Char × Bytes) × List Bytes) :=
  options flags valued ((words.map List.length).foldl (· + ·) words.length + 1) words

def illegalNumber {α : Type} (b : Bytes) : Run α := failWith ("Illegal number: ".toList ++ b)

/-- A count, which is no more than a small word holds. -/
def count (b : Bytes) : Run Nat := do
  let isGap (c : Char) : Bool := c == ' ' || ('\t' ≤ c && c ≤ '\r')
  let cs := b.dropWhile isGap
  let cs := if cs.head? = some '+' then cs.drop 1 else cs
  let digits := cs.takeWhile isDigit
  let n := digits.foldl (fun n c => 10 * n + (c.toNat - 48)) 0
  if digits.isEmpty || !(cs.drop digits.length).all isGap || Nat.pow 2 31 ≤ n then illegalNumber b
  else return n

/-- A text between single quotes, as a shell would read it back; apostrophes stand
between double quotes. -/
def singleQuoted (b : Bytes) : Bytes :=
  let isMark (c : Char) : Bool := c == '\''
  let runs := b.splitBy fun c d => isMark c == isMark d
  let quoted (run : Bytes) : Bytes :=
    if run.any isMark then '"' :: run ++ ['"'] else '\'' :: run ++ ['\'']
  let start : Bytes := if (b.head?.map isMark).getD true then ['\'', '\''] else []
  start ++ runs.flatMap quoted

/-- Faults of a builtin stop it with a status unless it is special. -/
def runBuiltin (r : Rules) (b : Builtin) (special tested : Bool) (name : Bytes)
    (arguments : List Bytes) : Run Nat := do
  modify fun m => { m with failedWrite := false }
  let action : Run Nat := do
    let status ← b.action r tested arguments
    if (← get).failedWrite then
      modify fun m => { m with failedWrite := false }
      complain (name ++ ": I/O error".toList)
      return if status % 2 = 0 then status + 1 else status
    else return status
  match ← attempt (onBehalf name action) with
  | .ok status => return status
  | .error (.failed status) => if special then throw (.failed status) else return status
  | .error stop => throw stop

end Run
end Shell
end CheckScript
