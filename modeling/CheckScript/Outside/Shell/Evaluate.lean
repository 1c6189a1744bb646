/-
What commands do.  The rule for one command builds on the rule for those in it.
-/
import CheckScript.Outside.Shell.Builtin.Control
import CheckScript.Outside.Shell.Builtin.Output
import CheckScript.Outside.Shell.External

namespace CheckScript
namespace Shell
namespace Run

/-! ## Builtins that run commands -/

def eval (r : Rules) (tested : Bool) (arguments : List Bytes) : Run Nat := do
  let (_, words) ← given "" "" arguments
  if words.isEmpty then return 0
  else
    runText r tested (Bytes.join [' '] words)
    return (← get).status

/-- Where a file of commands is.  Names without slashes are searched for. -/
def findSourced (name : Bytes) : Run Bytes := do
  if name.contains '/' then return name
  else
    let m ← get
    let path := ((scalar m "PATH".toList).getD []).splitOnP (· == ':')
    let found := path.findSome? fun directory =>
      let candidate := if directory.isEmpty then ['.', '/'] ++ name else directory ++ '/' :: name
      match m.ownFiles.find ⟨Bytes.text candidate⟩ with
      | .ok (.file _) => some candidate
      | _ => none
    match found with
    | some path => return path
    | none => failWith (name ++ ": not found".toList)

/-- Run the commands of a file in this shell. -/
def source (r : Rules) (tested : Bool) (arguments : List Bytes) : Run Nat := do
  let (_, words) ← given "" "" arguments
  match words with
  | [] => return 0
  | name :: _ =>
    let path ← findSourced name
    match (← files).read ⟨Bytes.text path⟩ with
    | .error fault =>
      failWith ("cannot open ".toList ++ path ++ ": ".toList ++ (openReason false fault).toList)
    | .ok bytes =>
      match ← attempt (onBehalf path (runText r tested (Bytes.ofArray bytes))) with
      | .ok _ => return (← get).status
      | .error (.returned status) => return status
      | .error stop => throw stop

/-- A command that takes the place of the shell.  What has been left for the end of
the shell is not done. -/
def exec (r : Rules) (_ : Bool) (arguments : List Bytes) : Run Nat := do
  match arguments with
  | [] => return 0
  | name :: rest =>
    match ← external r (environment (← get)) name rest with
    | .error reason =>
      complain (name ++ ": ".toList ++ (refusalText reason).toList)
      throw (.exit (refusalStatus reason))
    | .ok ending =>
      modify fun m => { m with traps := [] }
      throw (.exit (← statusOf ending))

/-- What a name stands for, in one word or in a sentence. -/
def describe (r : Rules) (builtins : List Builtin) (brief : Bool) (name : Bytes) :
    Run Nat := do
  let m ← get
  let tellIt (sentence : String) : Run Nat := do
    sayLine (if brief then name else name ++ sentence.toList)
    return 0
  if keywords.any fun k => k.toList == name then tellIt " is a shell keyword"
  else if m.functions.any fun f => f.1 == name then tellIt " is a shell function"
  else
    match builtins.find? fun b => b.name.toList == name with
    | some b => tellIt (if b.special then " is a special shell builtin" else " is a shell builtin")
    | none =>
      match ← findTarget r.programs (searchPath (environment m)) name with
      | (_, .refused _) =>
        if !brief then sayLine (name ++ ": not found".toList)
        return 127
      | (path, _) =>
        sayLine (if brief then path.getD name else name ++ " is ".toList ++ path.getD name)
        return 0

def describeAll (r : Rules) (builtins : List Builtin) (brief : Bool) (status : Nat) :
    List Bytes → Run Nat
  | [] => return status
  | name :: rest => do
    let one ← describe r builtins brief name
    describeAll r builtins brief (max status one) rest

def typeOf (builtins : List Builtin) (r : Rules) (_ : Bool) (arguments : List Bytes) : Run Nat := do
  describeAll r builtins false 0 arguments

/-- `command` itself, when it is asked about a name. -/
def commandOf (builtins : List Builtin) (r : Rules) (_ : Bool) (arguments : List Bytes) :
    Run Nat := do
  let (options, names) ← given "pvV" "" arguments
  match options.find? fun o => o.1 == 'v' || o.1 == 'V', names with
  | some (letter, _), name :: _ => describe r builtins (letter == 'v') name
  | _, _ => return 0

def hashAll (r : Rules) (status : Nat) : List Bytes → Run Nat
  | [] => return status
  | name :: rest => do
    match ← findTarget r.programs (searchPath (environment (← get))) name with
    | (_, .refused _) =>
      complain (name ++ ": not found".toList)
      hashAll r 1 rest
    | _ => hashAll r status rest

def hash (r : Rules) (_ : Bool) (arguments : List Bytes) : Run Nat := do
  let (_, names) ← given "rv" "" arguments
  hashAll r 0 names

/-- How a command that has been in the background has ended. -/
def statusOfJob (number : Nat) : Run Nat := do
  match (← get).ended.find? fun e => e.1 == number with
  | some (_, .finished status) => return status
  | some (_, .killed signal) => reportSignal signal
  | _ => return 127

/-- The number of the command that an operand of `wait` means: that of a process, or a
percent sign and the place in the order in which they have been begun. -/
def jobNumber (operand : Bytes) : Run Nat := do
  let jobs := (← get).jobs
  match operand with
  | '%' :: place =>
    let found := match place with
      | [] | ['%'] | ['+'] => jobs.head?
      | place => (natural? place).bind fun n => jobs.reverse[n - 1]?
    match found with
    | some number => return number
    | none => failWith ("No such job: ".toList ++ operand)
  | operand => count operand

def waitFor (r : Rules) (status : Nat) : List Bytes → Run Nat
  | [] => return status
  | operand :: rest => do
    let number ← jobNumber operand
    giveWay r
    waitFor r (← statusOfJob number) rest

/-- Wait for all commands in the background, or for some. -/
def wait (r : Rules) (_ : Bool) (arguments : List Bytes) : Run Nat := do
  let (_, operands) ← given "" "" arguments
  giveWay r
  waitFor r 0 operands

def plainBuiltins : List Builtin :=
  variableBuiltins ++ controlBuiltins ++ outputBuiltins ++
    [⟨"wait", false, false, wait⟩, ⟨"eval", true, false, eval⟩, ⟨".", true, false, source⟩,
      ⟨"exec", true, false, exec⟩, ⟨"hash", false, false, hash⟩,
      ⟨"kill", false, false, kill fun r text => runText r false text⟩]

def builtins : List Builtin :=
  let all := plainBuiltins ++ [.ofRegular "type" nothing, .ofRegular "command" nothing]
  plainBuiltins ++ [⟨"type", false, false, typeOf all⟩, ⟨"command", false, false, commandOf all⟩]

/-! ## Simple commands -/

inductive Callee where
  | none
  | function (body : Command)
  | builtin (b : Builtin)
  | external

/-- Who answers to a name.  Names with slashes are paths. -/
def calleeOf (withFunctions : Bool) (name : Bytes) : Run Callee := do
  let m ← get
  let function? := if withFunctions then m.functions.find? fun f => f.1 == name else Option.none
  match function? with
  | some f => return .function f.2
  | Option.none =>
    match builtins.find? fun b => b.name.toList == name with
    | some b => return .builtin b
    | Option.none => return .external

/-- What is behind `command` and its options, if it runs a command. -/
def behindCommand : List Bytes → Option (List Bytes)
  | ['-', 'p'] :: rest => behindCommand rest
  | ['-', '-'] :: rest => if rest.isEmpty then none else some rest
  | ('-' :: _ :: _) :: _ => none
  | [] => none
  | words => some words

/-- Expand words until there is a first argument. -/
def firstWords (r : Rules) : List Word → Run (List Bytes × List Word)
  | [] => return ([], [])
  | w :: ws => do
    match ← expandWords (capture r) [w] with
    | [] => firstWords r ws
    | args => return (args, ws)

/-- Expand the rest of the words, some of which may be assignments. -/
def otherWords (r : Rules) (assigns : Bool) : List Word → Run (List Bytes)
  | [] => return []
  | w :: ws => do
    let args ← match (if assigns then assignment? w else none) with
      | some (name, value) => do pure [name ++ '=' :: (← expandValue (capture r) value)]
      | none => expandWords (capture r) [w]
    return args ++ (← otherWords r assigns ws)

/-- The arguments of a command, who answers to them, and whether it is special. -/
structure Call where
  arguments : List Bytes
  callee : Callee
  special : Bool

/-- Find out whom some first arguments call.  Whoever is called through `command` is
not special. -/
def resolve (arguments : List Bytes) (throughCommand : Bool) : Nat → Run Call
  | 0 => return ⟨arguments, .external, false⟩
  | fuel + 1 => do
    match arguments with
    | [] => return ⟨[], .none, false⟩
    | name :: rest =>
      match ← calleeOf (!throughCommand) name with
      | .builtin b =>
        match (if b.name == "command" then behindCommand rest else none) with
        | some words => resolve words true fuel
        | none => return ⟨arguments, .builtin b, b.special && !throughCommand⟩
      | callee => return ⟨arguments, callee, false⟩

/-- Expand the words of a command. -/
def callOf (r : Rules) (words : List Word) : Run Call := do
  let (first, rest) ← firstWords r words
  let early ← resolve first false (first.length + 1)
  let assigns := match early.callee with
    | .builtin b => b.assigns
    | _ => match first, rest with
      | [c], w :: _ => c == "command".toList && (bare? w).any fun n =>
          builtins.any fun b => b.assigns && b.name.toList == n
      | _, _ => false
  let arguments := first ++ (← otherWords r assigns rest)
  resolve arguments false (arguments.length + 1)

def assignOne (r : Rules) (exported lasting : Bool) (a : Bytes × Word) : Run Bytes := do
  let value ← expandValue (capture r) a.2
  if !lasting then remember a.1
  if exported then
    assign a.1 value
    match findVariable (← get) a.1 with
    | some v => putVariable a.1 { v with exported := true }
    | none => pure ()
  else assign a.1 value
  return a.1 ++ '=' :: value

def assignEach (r : Rules) (exported lasting : Bool) :
    List (Bytes × Word) → Run (List Bytes)
  | [] => return []
  | a :: rest => do
    let shown ← assignOne r exported lasting a
    return shown :: (← assignEach r exported lasting rest)

/-- Show a command before it runs, where that is wanted; `errors` is where messages
went before the redirections of the command. -/
def traceCommand (errors : Option Nat) (words : List Bytes) : Run Unit := do
  let m ← get
  if m.option 'x' then
    let mark := (scalar m "PS4".toList).getD []
    match errors with
    | some index =>
      let _ ← writeTo index (Bytes.toArray (mark ++ Bytes.join [' '] words ++ ['\n']))
    | none => return ()

/-- Functions may call one another as deep as this. -/
def maxDepth : Nat := 1000

def callFunction (r : Rules) (tested : Bool) (body : Command) (arguments : List Bytes) :
    Run Nat := do
  let m ← get
  if maxDepth ≤ m.depth then
    failWith s!"Maximum function recursion depth ({maxDepth}) reached".toList
  set { m with arguments, loops := 0, depth := m.depth + 1 }
  let run : Run Unit := keepingVariables (r.evaluate tested body)
  let r ← attempt (keeping (fun n => { n with
    arguments := m.arguments, loops := m.loops, depth := m.depth }) run)
  match r with
  | .ok _ => return (← get).status
  | .error (.returned status) => return status
  | .error stop => throw stop

def callExternal (r : Rules) (name : Bytes) (arguments : List Bytes) : Run Nat := do
  if 0 < pauseOf (name :: arguments) then giveWay r
  match ← external r (environment (← get)) name arguments with
  | .error reason =>
    complain (name ++ ": ".toList ++ (refusalText reason).toList)
    return if name.contains '/' then refusalStatus reason else 127
  | .ok (.killed signal) => reportSignal signal
  | .ok ending => statusOf ending

def call (r : Rules) (tested : Bool) (c : Call) : Run Nat := do
  match c.callee, c.arguments with
  | .builtin b, name :: rest => runBuiltin r b c.special tested name rest
  | .function body, _ :: rest => callFunction r tested body rest
  | _, name :: rest => callExternal r name rest
  | _, [] => return (← get).captured

/-- Whether redirections last: those of `exec` do. -/
def Call.isExec (c : Call) : Bool :=
  match c.callee with
  | .builtin b => b.name == "exec"
  | _ => false

/-- Carry out a call with its assignments, which last if nothing is called or what
is called is special. -/
def carryOut (r : Rules) (tested : Bool) (errors : Option Nat) (c : Call)
    (assignments : List (Bytes × Word)) : Run Nat := do
  let lasting := c.arguments.isEmpty || c.special
  let work : Run Nat := do
    let exported := !lasting || (c.isExec && 1 < c.arguments.length)
    let shown ← assignEach r exported lasting assignments
    if !(shown.isEmpty && c.arguments.isEmpty) then traceCommand errors (shown ++ c.arguments)
    call r tested c
  if lasting || assignments.isEmpty then work else keepingVariables work

def simple (r : Rules) (tested : Bool) (line : Nat) (assignments : List (Bytes × Word))
    (words : List Word) (redirections : List Redirection) : Run Nat := do
  modify fun m => { m with line, captured := 0 }
  let c ← callOf r words
  let links ← expandLinks (capture r) redirections
  let streams := (← get).streams
  let errors ← indexOf? 2
  let putStreams (m : Machine) : Machine := { m with streams }
  match ← attempt (applyLinks links) with
  | .error (.failed status) =>
    modify putStreams
    if c.special then throw (.failed status) else return status
  | .error stop => throw stop
  | .ok _ =>
    let work := carryOut r tested errors c assignments
    if c.isExec then
      match ← attempt work with
      | .ok status => return status
      | .error stop =>
        modify putStreams
        throw stop
    else keeping putStreams work

/-! ## Compound commands -/

/-- A failure that nobody expects ends the shell under option `e`. -/
def settle (tested : Bool) (status : Nat) : Run Unit := do
  setStatus status
  if status ≠ 0 ∧ !tested ∧ (← get).option 'e' then throw (.exit status)

/-- How one round of a loop has gone. -/
inductive Round where
  | through
  | again
  | left

/-- Run a part of a loop.  What leaves loops further out goes on as far as they. -/
def round (body : Run Unit) : Run Round := do
  match ← attempt body with
  | .ok _ => return .through
  | .error (.broke 1) =>
    setStatus 0
    return .left
  | .error (.broke n) => throw (.broke (n - 1))
  | .error (.continued 1) =>
    setStatus 0
    return .again
  | .error (.continued n) => throw (.continued (n - 1))
  | .error stop => throw stop

def inLoop {α : Type} (body : Run α) : Run α := do
  let loops := (← get).loops
  modify fun m => { m with loops := loops + 1 }
  keeping (fun m => { m with loops }) body

/-- Loops go on for this many rounds. -/
def maxRounds : Nat := Nat.pow 2 17

def repeatWhile (r : Rules) (tested wanted : Bool) (condition body : Command) (status : Nat) :
    Nat → Run Nat
  | 0 => throw .exhausted
  | fuel + 1 => do
    match ← round (r.evaluate true condition) with
    | .left => return status
    | .again => repeatWhile r tested wanted condition body status fuel
    | .through =>
      if ((← get).status == 0) != wanted then return status
      else
        match ← round (r.evaluate tested body) with
        | .left => return (← get).status
        | _ => repeatWhile r tested wanted condition body (← get).status fuel

def repeatFor (r : Rules) (tested : Bool) (name : Bytes) (body : Command) (status : Nat) :
    List Bytes → Run Nat
  | [] => return status
  | value :: rest => do
    assign name value
    match ← round (r.evaluate tested body) with
    | .left => return (← get).status
    | _ => repeatFor r tested name body (← get).status rest

/-- Whether one of some patterns fits. -/
def fitsAny (r : Rules) (subject : Bytes) : List Word → Run Bool
  | [] => return false
  | w :: ws => do
    if (← expandPattern (capture r) w).fits subject then return true else fitsAny r subject ws

def choose (r : Rules) (tested : Bool) (subject : Bytes) :
    List (List Word × Command) → Run Nat
  | [] => return 0
  | (patterns, body) :: rest => do
    if ← fitsAny r subject patterns then
      match body with
      | .nothing => return 0
      | body =>
        r.evaluate tested body
        return (← get).status
    else choose r tested subject rest

/-- Commands whose output is the input of the next.  Each goes on to its end before
the next one begins; what one has written before it waits can be read already. -/
def pipeParts (r : Rules) (tested waits : Bool) (input : Option Nat) :
    List Command → Run (Nat × Bool)
  | [] => return (0, waits)
  | c :: cs => do
    let output ← if cs.isEmpty then pure none else some <$> addPipe true
    let process := inProcess r do
      match input with
      | some i => joinNew 0 (.pipe i)
      | none => pure ()
      match output with
      | some i => joinNew 1 (.pipe i)
      | none => pure ()
      r.evaluate tested c
    let ending ← if cs.isEmpty then process else withBackground r process
    match output, ending with
    | none, .waiting => return (0, true)
    | none, ending => return (← statusOf ending, waits)
    | some i, .waiting =>
      setPipe i { ← pipe i with isOpen := true }
      pipeParts r tested true (some i) cs
    | some i, .exhausted => pipeParts r tested waits (some i) cs
    | some i, ending =>
      let _ ← statusOf ending
      pipeParts r tested waits (some i) cs

def pipeline (r : Rules) (tested : Bool) (commands : List Command) : Run Nat := do
  let (status, waits) ← pipeParts r tested false none commands
  if waits then throw .waiting else return status

/-- Commands in the background run when the shell waits or has come to its end. -/
def background (body : Command) : Run Unit := do
  let number ← newNumber
  postpone number body
  modify fun m => { m with jobs := number :: m.jobs, status := 0 }

def subshell (r : Rules) (tested : Bool) (line : Nat) (body : Command)
    (redirections : List Redirection) : Run Nat := do
  modify fun m => { m with line }
  let links ← expandLinks (capture r) redirections
  statusOf (← inProcess r do
    applyLinks links
    r.evaluate tested body)

def redirected (r : Rules) (tested : Bool) (line : Nat) (body : Command)
    (redirections : List Redirection) : Run Unit := do
  modify fun m => { m with line }
  let links ← expandLinks (capture r) redirections
  let streams := (← get).streams
  let putStreams (m : Machine) : Machine := { m with streams }
  match ← attempt (applyLinks links) with
  | .error (.failed status) =>
    modify putStreams
    setStatus status
  | .error stop => throw stop
  | .ok _ => keeping putStreams (r.evaluate tested body)

/-- What a command does by the rules for those in it. -/
def step (r : Rules) (tested : Bool) : Command → Run Unit
  | .nothing => return ()
  | .simple line assignments words redirections => do
    settle tested (← simple r tested line assignments words redirections)
  | .pipeline commands => do settle tested (← pipeline r tested commands)
  | .negation body => do
    r.evaluate true body
    setStatus (if (← get).status = 0 then 1 else 0)
  | .conjunction first second => do
    r.evaluate true first
    if (← get).status = 0 then r.evaluate tested second
  | .disjunction first second => do
    r.evaluate true first
    if (← get).status ≠ 0 then r.evaluate tested second
  | .sequence first second => do
    r.evaluate tested first
    r.evaluate tested second
  | .background body => background body
  | .subshell line body redirections => do
    settle tested (← subshell r tested line body redirections)
  | .redirected line body redirections => redirected r tested line body redirections
  | .branch condition body otherwise => do
    r.evaluate true condition
    if (← get).status = 0 then r.evaluate tested body
    else
      match otherwise with
      | .nothing => setStatus 0
      | otherwise => r.evaluate tested otherwise
  | .loop wanted condition body => do
    setStatus (← inLoop (repeatWhile r tested wanted condition body 0 maxRounds))
  | .each line name words body => do
    modify fun m => { m with line }
    let values ← match words with
      | some words => expandWords (capture r) words
      | none => do pure (← get).arguments
    setStatus (← inLoop (repeatFor r tested name body 0 values))
  | .choice line subject arms => do
    modify fun m => { m with line }
    let text ← expandText (capture r) subject
    setStatus (← choose r tested text arms)
  | .define name body => do
    modify fun m => { m with
      functions := (name, body) :: m.functions.filter fun f => f.1 != name }
    setStatus 0

/-- What a command does.  Commands may stand in one another as deep as the fuel. -/
def evaluate (programs : List Program) : Nat → Bool → Command → Run Unit
  | 0, _, _ => throw .exhausted
  | fuel + 1, tested, command => do
    if (← get).option 'n' then return ()
    else step ⟨programs, evaluate programs fuel⟩ tested command

end Run
end Shell
end CheckScript
