/-
Commands that steer the shell: its end, its loops, its directory, and signals.
-/
import CheckScript.Outside.Shell.Builtin.Basic
import CheckScript.Signal

namespace CheckScript
namespace Shell
namespace Run

/-! ## Ends -/

def exit (arguments : List Bytes) : Run Nat := do
  match arguments with
  | [] => throw (.exit (← get).status)
  | a :: _ => throw (.exit (← count a))

def returnStatus (arguments : List Bytes) : Run Nat := do
  match arguments with
  | [] => throw (.returned (← get).status)
  | a :: _ => throw (.returned (← count a))

/-- Leave some loops, or go on with one of them.  Outside of loops nothing
happens. -/
def leave (stop : Nat → Stop) (arguments : List Bytes) : Run Nat := do
  let n ← match arguments with
    | [] => pure 1
    | a :: _ =>
      let n ← count a
      if n = 0 then illegalNumber a else pure n
  let m ← get
  let levels := min n m.loops
  if levels = 0 then return 0 else throw (stop levels)

/-! ## The working directory -/

def placeText (place : List String) : Bytes :=
  if place.isEmpty then ['/'] else place.flatMap fun n => '/' :: Bytes.ofText n

def pwd (arguments : List Bytes) : Run Nat := do
  let _ ← given "LP" "" arguments
  sayLine (placeText (← get).here)
  return 0

def putExported (name value : Bytes) : Run Unit := do
  assign name value
  match findVariable (← get) name with
  | some v => putVariable name { v with exported := true }
  | none => return ()

def cd (arguments : List Bytes) : Run Nat := do
  let (_, operands) ← given "LP" "" arguments
  let m ← get
  let value (name : String) : Bytes := (scalar m name.toList).getD []
  let isBack := operands.head? == some ['-']
  let target := if isBack then value "OLDPWD" else operands.head?.getD (value "HOME")
  let target := if target.isEmpty then ['.'] else target
  match m.ownFiles.enter ⟨Bytes.text target⟩ with
  | .error _ => failWith ("can't cd to ".toList ++ target)
  | .ok f =>
    let old := placeText m.here
    modify fun m => { m with here := f.here }
    putExported "OLDPWD".toList old
    putExported "PWD".toList (placeText f.here)
    if isBack then sayLine (placeText f.here)
    return 0

/-! ## Signals -/

def sameLetters (a b : Bytes) : Bool :=
  let upper (c : Char) : Char := if 'a' ≤ c ∧ c ≤ 'z' then Char.ofNat (c.toNat - 32) else c
  a.map upper == b.map upper

/-- The names of all signals, those of the second kind counted from both ends. -/
def signalName (n : Nat) : Bytes :=
  match Signal.name? n with
  | some name => if n = 16 then Bytes.ofNat n else name.toList
  | none =>
    if n = 0 then "EXIT".toList
    else if n < 34 then Bytes.ofNat n
    else if n = 34 then "RTMIN".toList
    else if n = 64 then "RTMAX".toList
    else if n ≤ 49 then "RTMIN+".toList ++ Bytes.ofNat (n - 34)
    else "RTMAX-".toList ++ Bytes.ofNat (64 - n)

/-- A signal by its number or its name. -/
def signal? (least : Nat) (b : Bytes) : Option Nat :=
  if !b.isEmpty && b.all isDigit then
    let n := b.foldl (fun n c => 10 * n + (c.toNat - 48)) 0
    if least ≤ n && n ≤ Signal.last then some n else none
  else
    ((List.range (Signal.last + 1)).filter (least ≤ ·)).find? fun n => sameLetters (signalName n) b

/-- What a signal does to the shell that gets it. -/
def receive (r : Rules) (runText : Rules → Bytes → Run Unit) (signal : Nat) : Run Unit := do
  let m ← get
  match m.traps.find? fun t => t.1 == signal with
  | some (_, action) =>
    if signal ≠ 9 ∧ signal ≠ 19 then
      if !action.isEmpty then
        let status := m.status
        runText r action
        setStatus status
    else throw (.killed signal)
  | none =>
    if signal = 0 ∨ Signal.isIgnored signal then return ()
    else if Signal.isStop signal then throw .waiting
    else throw (.killed signal)

def noProcess : Run Nat := do
  complain "No such process\n".toList
  return 1

/-- Send a signal to a command in the background, which it may end. -/
def endJob (signal number : Nat) : Run Unit := do
  let m ← get
  let isPending := m.pending.any fun p => p.number == number
  if isPending && signal ≠ 0 && !Signal.isIgnored signal && !Signal.isStop signal then
    set { m with
      pending := m.pending.filter fun p => p.number != number
      ended := (number, .killed signal) :: m.ended }

/-- Send a signal to processes.  Only the shell itself is there, and commands that
have ended already but have not been waited for. -/
def sendTo (r : Rules) (runText : Rules → Bytes → Run Unit) (signal status : Nat) :
    List Bytes → Run Nat
  | [] => return status
  | p :: ps => do
    let n ← count (if p.head? = some '-' then p.drop 1 else p)
    let m ← get
    if n = m.number then
      receive r runText signal
      sendTo r runText signal status ps
    else if m.jobs.contains n then
      endJob signal n
      sendTo r runText signal status ps
    else
      let failed ← noProcess
      sendTo r runText signal failed ps

def killUsage {α : Type} : Run α :=
  failWith ("Usage: kill [-s sigspec | -signum | -sigspec] [pid | job]... or\n" ++
    "kill -l [exitstatus]").toList

def listSignals (arguments : List Bytes) : Run Nat := do
  match arguments with
  | [] =>
    say (((List.range Signal.last).map fun n => signalName (n + 1)).flatMap
      (· ++ ['\n']) |> fun names => '0' :: '\n' :: names)
    return 0
  | a :: _ =>
    let n ← count a
    let n := if 128 < n then n - 128 else n
    if 0 < n ∧ n ≤ Signal.last then
      sayLine (signalName n)
      return 0
    else failWith ("invalid signal number or exit status: ".toList ++ a)

def kill (runText : Rules → Bytes → Run Unit) (r : Rules) (_ : Bool) (arguments : List Bytes) :
    Run Nat := do
  match arguments with
  | [] => killUsage
  | first :: rest =>
    let named := match first with
      | '-' :: name => signal? 0 name
      | _ => none
    match named with
    | some n => if rest.isEmpty then killUsage else sendTo r runText n 0 rest
    | none =>
      let (options, operands) ← given "l" "s" arguments
      match options.getLast? with
      | some ('l', _) => listSignals operands
      | some (_, name) =>
        match signal? 0 name with
        | none => failWith ("invalid signal number or name: ".toList ++ name)
        | some n => if operands.isEmpty then killUsage else sendTo r runText n 0 operands
      | none => if operands.isEmpty then killUsage else sendTo r runText 15 0 operands

/-! ## Traps -/

def listTraps : Run Nat := do
  let m ← get
  let sorted := m.traps.mergeSort fun a b => a.1 ≤ b.1
  say (sorted.flatMap fun t =>
    "trap -- ".toList ++ singleQuoted t.2 ++ ' ' :: signalName t.1 ++ ['\n'])
  return 0

def setTraps (action : Option Bytes) : List Bytes → Run Nat
  | [] => return 0
  | name :: rest => do
    match signal? 0 name with
    | none =>
      let _ ← write 2 ("trap: ".toList ++ name ++ ": bad trap\n".toList)
      return 1
    | some n =>
      modify fun m =>
        let others := m.traps.filter fun t => t.1 != n
        { m with traps := match action with
            | none => others
            | some a => (n, a) :: others }
      setTraps action rest

def trap (arguments : List Bytes) : Run Nat := do
  let (_, operands) ← given "" "" arguments
  match operands with
  | [] => listTraps
  | [name] => setTraps none [name]
  | action :: names =>
    if (signal? 0 action).isSome then setTraps none operands
    else setTraps (if action = ['-'] then none else some action) names

/-! ## Odds and ends -/

def noJob (_ : List Bytes) : Run Nat := failWith "No current job".toList

def nothing (_ : List Bytes) : Run Nat := return 0

def failure (_ : List Bytes) : Run Nat := return 1

def octalMask (n : Nat) : Bytes :=
  '0' :: [n / 64 % 8, n / 8 % 8, n % 8].map fun d => Char.ofNat (48 + d)

/-- The permissions that a mask leaves to one kind of users. -/
def lettersOf (n : Nat) : Bytes :=
  (if n / 4 % 2 = 0 then ['r'] else []) ++ (if n / 2 % 2 = 0 then ['w'] else []) ++
    (if n % 2 = 0 then ['x'] else [])

def umask (arguments : List Bytes) : Run Nat := do
  let (options, operands) ← given "S" "" arguments
  match operands with
  | [] =>
    let mask := (← get).mask
    if options.isEmpty then sayLine (octalMask mask)
    else
      sayLine ("u=".toList ++ lettersOf (mask / 64) ++ ",g=".toList ++ lettersOf (mask / 8) ++
        ",o=".toList ++ lettersOf mask)
    return 0
  | a :: _ =>
    if (a.head?.map isDigit).getD false then
      if a.all fun c => '0' ≤ c && c ≤ '7' then
        modify fun m => { m with mask := a.foldl (fun n c => 8 * n + (c.toNat - 48)) 0 % 512 }
        return 0
      else illegalNumber a
    else failWith ("Illegal mode: ".toList ++ a)

def times (_ : List Bytes) : Run Nat := do
  say "0m0.000000s 0m0.000000s\n0m0.000000s 0m0.000000s\n".toList
  return 0

def ulimit (arguments : List Bytes) : Run Nat := do
  let (options, operands) ← given "HSatfdscmlpnvwr" "" arguments
  if operands.isEmpty && options.length ≤ 1 then sayLine "unlimited".toList
  return 0

def controlBuiltins : List Builtin :=
  [.ofSpecial "exit" exit, .ofSpecial "return" returnStatus, .ofSpecial "break" (leave .broke),
    .ofSpecial "continue" (leave .continued), .ofSpecial ":" nothing, .ofRegular "true" nothing,
    .ofRegular "false" failure, .ofRegular "pwd" pwd, .ofRegular "cd" cd, .ofRegular "chdir" cd,
    .ofSpecial "trap" trap, .ofRegular "jobs" nothing,
    .ofRegular "bg" noJob, .ofRegular "fg" noJob, .ofRegular "umask" umask,
    .ofSpecial "times" times, .ofRegular "ulimit" ulimit, .ofRegular "alias" nothing,
    .ofRegular "unalias" nothing]

end Run
end Shell
end CheckScript
