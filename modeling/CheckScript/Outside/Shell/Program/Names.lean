/-
Programs about names, and those that only end in a certain way.
-/
import CheckScript.Outside.Shell.Program.FileWork

namespace CheckScript
namespace Shell
namespace Job

/-! ## basename and dirname -/

/-- Drop an ending, unless it is all of the name. -/
def dropEnding (ending name : Bytes) : Bytes :=
  if ending.isSuffixOf name && ending.length < name.length then
    name.take (name.length - ending.length)
  else name

def extraOperand {α : Type} (status : Nat) (name : Bytes) : Job α :=
  usage status ("extra operand ".toList ++ Quoting.always name)

def basename : Job Unit := do
  let g ← givenInFront 1 "az" "s"
  let ending := (g.value? 's').getD []
  match g.operands with
  | [] => usage 1 "missing operand".toList
  | names =>
    if g.has 'a' || g.has 's' then
      names |> eachOf fun n => printLine (dropEnding ending (lastName n))
    else
      match names with
      | [n] => printLine (lastName n)
      | [n, e] => printLine (dropEnding e (lastName n))
      | _ :: _ :: third :: _ => extraOperand 1 third
      | [] => return ()

/-- What stands before the last component. -/
def directoryPart (name : Bytes) : Bytes :=
  let slash (c : Char) : Bool := c == '/'
  let back := name.reverse.dropWhile slash
  if back.isEmpty then (if name.isEmpty then ['.'] else ['/'])
  else
    let above := back.dropWhile (!slash ·)
    if above.isEmpty then ['.']
    else
      let above := above.dropWhile slash
      if above.isEmpty then ['/'] else above.reverse

def dirname : Job Unit := do
  let g ← given 1 "z" "" []
  if g.operands.isEmpty then usage 1 "missing operand".toList
  g.operands |> eachOf fun n => printLine (directoryPart n)

/-! ## Paths from the root -/

def rooted (place : List String) : Bytes :=
  if place.isEmpty then ['/'] else place.flatMap fun n => '/' :: Bytes.ofText n

def realpath : Job Unit := do
  let g ← given 1 "emsqzLP" "" [("canonicalize-existing", 'e'), ("canonicalize-missing", 'm'),
    ("no-symlinks", 's'), ("quiet", 'q')]
  if g.operands.isEmpty then usage 1 "missing operand".toList
  g.operands |> eachOf fun n => do
    let f ← files
    match f.locate (pathOf n) with
    | .ok place =>
      if g.has 'e' ∧ (f.get? place).isNone then
        if g.has 'q' then setStatus 1
        else warn 1 (Quoting.ifNeeded n ++ ": No such file or directory".toList)
      else printLine (rooted place)
    | .error fault =>
      if g.has 'q' then setStatus 1
      else warn 1 (Quoting.ifNeeded n ++ ": ".toList ++ fault.reason.toList)

/-- Nothing is a link here, so that only whole paths have an answer. -/
def readlink : Job Unit := do
  let g ← given 1 "femnqsvz" "" [("canonicalize", 'f'), ("canonicalize-existing", 'e'),
    ("canonicalize-missing", 'm'), ("no-newline", 'n')]
  if g.operands.isEmpty then usage 1 "missing operand".toList
  g.operands |> eachOf fun n => do
    let f ← files
    match f.locate (pathOf n) with
    | .ok place =>
      let isThere := (f.get? place).isSome
      if g.has 'f' || g.has 'm' || (g.has 'e' && isThere) then
        if g.has 'n' then print (rooted place) else printLine (rooted place)
      else setStatus 1
    | .error _ => setStatus 1

def pwd : Job Unit := do
  let _ ← given 1 "LP" "" []
  printLine (rooted (← files).here)

/-! ## The environment -/

def printenv : Job Unit := do
  let g ← given 2 "0" "" [("null", '0')]
  let d ← get
  if g.operands.isEmpty then
    d.environment |> eachOf fun v => printLine (v.1 ++ '=' :: v.2)
  else
    g.operands |> eachOf fun n => do
      match d.environment.find? fun v => v.1 == n with
      | some v => printLine v.2
      | none => setStatus 1

/-! ## The machine and its user -/

def uname : Job Unit := do
  let g ← given 1 "asnrvmpio" "" [("all", 'a'), ("kernel-name", 's'), ("machine", 'm')]
  let answers := [('s', "Linux"), ('n', "localhost"), ('m', "x86_64"), ('o', "GNU/Linux")]
  let wanted := answers.filter fun a =>
    g.has 'a' || g.has a.1 || (g.options.isEmpty && a.1 == 's')
  printLine (Bytes.join [' '] (wanted.map fun a => a.2.toList))

def arch : Job Unit := printLine "x86_64".toList

def whoami : Job Unit := printLine "root".toList

/-- All numbers of the user are zero, and all names the same. -/
def identity : Job Unit := do
  let g ← given 1 "ugGnr" "" [("user", 'u'), ("group", 'g'), ("groups", 'G'), ("name", 'n')]
  if g.has 'u' || g.has 'g' || g.has 'G' then
    printLine (if g.has 'n' then "root" else "0").toList
  else printLine "uid=0(root) gid=0(root) groups=0(root)".toList

/-- The input is no terminal. -/
def terminal : Job Unit := do
  let g ← given 2 "s" "" [("silent", 's'), ("quiet", 's')]
  if !g.has 's' then printLine "not a tty".toList
  quit 1

/-! ## Only a status -/

def succeed : Job Unit := return ()

def fail : Job Unit := setStatus 1

end Job
end Shell
end CheckScript
