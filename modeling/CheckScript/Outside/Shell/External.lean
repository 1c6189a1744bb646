/-
Commands outside the shell: programs, other shells, files of commands, and
programs that run another command.
-/
import CheckScript.Outside.Shell.Builtin.Variables
import CheckScript.Outside.Shell.Process
import CheckScript.Outside.Shell.Program.Pause
import CheckScript.Outside.Shell.Program.Quoting
import CheckScript.Outside.Shell.Program.Search
import CheckScript.Outside.Shell.Redirect

namespace CheckScript
namespace Shell
namespace Run

/-! ## Shells -/

/-- What the words behind the name of a shell ask for. -/
structure Invocation where
  isCommand : Bool
  fromInput : Bool
  options : List Char
  words : List Bytes

/-- Read the options of a shell, as those of `set` but for two more letters. -/
def invocation (i : Invocation) : Nat → List Bytes → Except Bytes Invocation
  | 0, _ | _, [] => .ok i
  | fuel + 1, w :: rest =>
    let letters (on : Bool) (i : Invocation) (cs : Bytes) : Except Bytes Invocation :=
      cs.foldlM (fun (i : Invocation) c =>
        if c = 'c' then .ok { i with isCommand := true }
        else if c = 's' then .ok { i with fromInput := true }
        else if c = 'l' then .ok i
        else if optionNames.any fun o => o.2 == c && c != 'N' && c != 'D' then
          .ok { i with options := (i.options.filter (· != c)) ++ if on then [c] else [] }
        else .error (s!"Illegal option -{String.singleton c}".toList)) i
    match w with
    | ['-'] | ['-', '-'] => .ok { i with words := rest }
    | ['-', 'o'] | ['+', 'o'] =>
      match rest with
      | [] => .ok { i with words := [] }
      | name :: rest =>
        match optionNames.find? fun o => o.1.toList == name with
        | some o => (letters (w == ['-', 'o']) i [o.2]).bind fun i => invocation i fuel rest
        | none => .error ("Illegal option -o ".toList ++ name)
    | '-' :: cs => (letters true i cs).bind fun i => invocation { i with words := rest } fuel rest
    | '+' :: cs => (letters false i cs).bind fun i => invocation { i with words := rest } fuel rest
    | w => .ok { i with words := w :: rest }

/-- The variables that every shell sets. -/
def ownVariables (parent : Nat) : List (Bytes × Variable) :=
  let plain (name value : String) : Bytes × Variable :=
    (name.toList, ⟨some value.toList, false, false⟩)
  [plain "IFS" " \t\n", plain "OPTIND" "1", plain "PPID" (toString parent), plain "PS1" "# ",
    plain "PS2" "> ", plain "PS4" "+ "]

/-- A new shell in place of the process. -/
def freshShell (name : Bytes) (environment : List (Bytes × Bytes)) : Run Unit := do
  let number ← newNumber
  let m ← get
  let given := environment.filterMap fun v =>
    if isName v.1 then some (v.1, (⟨some v.2, true, false⟩ : Variable)) else none
  let own := (ownVariables m.number).filter fun v => v.1 == "PPID".toList || v.1 == "IFS".toList ||
    !given.any fun g => g.1 == v.1
  let given := given.filter fun g => !own.any fun v => v.1 == g.1
  set { m with
    number, name, arguments := [], bindings := given ++ own, functions := [], status := 0
    captured := 0, line := 0, caller := none, options := [], loops := 0, depth := 0, kept := []
    jobs := [], optionPlace := (0, 0), traps := lastingTraps m.traps }

/-- Run commands that come from the input. -/
def runInput (r : Rules) : Run Unit := do
  match ← available 0 with
  | .error _ => return ()
  | .ok (text, more) =>
    let complete := if more then (text.reverse.dropWhile (· != '\n')).reverse else text
    consume 0 text.length
    let _ ← runLines r false more false (.ofText complete 1) (complete.length + 2)
    if more then throw .waiting

/-- A shell with the words behind its name. -/
def shellMain (r : Rules) (name : Bytes) (words : List Bytes) : Run Unit := do
  match invocation ⟨false, false, [], words⟩ (words.length + 1) words with
  | .error fault => failWith fault
  | .ok i =>
    modify fun m => { m with options := i.options }
    let start (name : Bytes) (arguments : List Bytes) : Run Unit :=
      modify fun m => { m with name, arguments, line := 1 }
    match i.isCommand, i.words with
    | true, [] => failWith "-c requires an argument".toList
    | true, text :: rest =>
      start (rest.head?.getD name) (rest.drop 1)
      runText r false text
    | false, file :: rest =>
      if i.fromInput then
        start name i.words
        runInput r
      else
        match (← files).read ⟨Bytes.text file⟩ with
        | .error fault => failWith ("cannot open ".toList ++ file ++ ": ".toList ++
            (openReason false fault).toList)
        | .ok bytes =>
          start file rest
          runText r false (Bytes.ofArray bytes)
    | false, [] =>
      start name []
      runInput r

/-- Run something that takes the place of a new process. -/
def inShell (r : Rules) (name : Bytes) (environment : List (Bytes × Bytes)) (body : Run Unit) :
    Run Ending := do
  let process : Run Ending := do
    freshShell name environment
    toEnd r body
  match ← withBackground r (apart process) with
  | .ok ending => return ending
  | .error stop => return endingOf stop

/-! ## Files of commands -/

/-- The program that the first line of a file asks for, with a word for it. -/
def interpreter? (content : Bytes) : Option (Bytes × Option Bytes) :=
  match content with
  | '#' :: '!' :: rest =>
    let isGap (c : Char) : Bool := c == ' ' || c == '\t'
    let line := (rest.takeWhile (· != '\n')).dropWhile isGap
    let path := line.takeWhile (!isGap ·)
    let word := ((line.drop path.length).dropWhile isGap).reverse.dropWhile isGap |>.reverse
    if path.isEmpty then none else some (path, if word.isEmpty then none else some word)
  | _ => none

/-! ## Programs that run commands -/

/-- Why a launcher could not run a command. -/
def launchFault (launcher : Launcher) (name command : Bytes) (reason : String) : Bytes :=
  let quoted := Quoting.always command
  match launcher with
  | .arguments => name ++ ": ".toList ++ command ++ ": ".toList ++ reason.toList
  | .environment | .search => name ++ ": ".toList ++ quoted ++ ": ".toList ++ reason.toList
  | _ => name ++ ": failed to run command ".toList ++ quoted ++ ": ".toList ++ reason.toList

def tell (text : Bytes) : Run Unit := do let _ ← write 2 (text ++ ['\n'])

/-- Assignments in front of a command. -/
def leadingAssignments : List Bytes → List (Bytes × Bytes) × List Bytes
  | [] => ([], [])
  | w :: rest =>
    match cutAssignment w with
    | (name, some value) =>
      let r := leadingAssignments rest
      ((name, value) :: r.1, r.2)
    | (_, none) => ([], w :: rest)

def putEntry (environment : List (Bytes × Bytes)) (entry : Bytes × Bytes) : List (Bytes × Bytes) :=
  if environment.any fun v => v.1 == entry.1 then
    environment.map fun v => if v.1 == entry.1 then entry else v
  else environment ++ [entry]

/-- Words of an input, between blanks; quotes and backslashes protect blanks. -/
def inputWords (word : Option Bytes) (quote : Option Char) : Nat → Bytes → List Bytes
  | 0, _ => []
  | _, [] => (word.map List.reverse).toList
  | fuel + 1, c :: cs =>
    let add (c : Char) : Option Bytes := some (c :: word.getD [])
    match quote with
    | some q => if c = q then inputWords (some (word.getD [])) none fuel cs
      else inputWords (add c) quote fuel cs
    | none =>
      if c = '\'' ∨ c = '"' then inputWords (some (word.getD [])) (some c) fuel cs
      else if c = '\\' then
        match cs with
        | d :: cs => inputWords (add d) none fuel cs
        | [] => inputWords word none fuel []
      else if isSpace c then (word.map List.reverse).toList ++ inputWords none none fuel cs
      else inputWords (add c) none fuel cs

/-- Put a word in place of a sign, wherever it stands. -/
def substituteSign (sign new : Bytes) : Nat → Bytes → Bytes
  | 0, b => b
  | _, [] => []
  | fuel + 1, c :: cs =>
    if sign.isPrefixOf (c :: cs) then
      new ++ substituteSign sign new fuel ((c :: cs).drop sign.length)
    else c :: substituteSign sign new fuel cs

def chunks (size : Nat) : Nat → List Bytes → List (List Bytes)
  | 0, _ | _, [] => []
  | fuel + 1, words => words.take size :: chunks size fuel (words.drop size)

/-- The commands that `xargs` runs.  As long as more input may come, these are the
ones that it cannot change any more. -/
def argumentCommands (g : Job.Given) (more : Bool) (input : Bytes) : List (List Bytes) :=
  let command := if g.operands.isEmpty then ["echo".toList] else g.operands
  let input := if more then (input.reverse.dropWhile (· != '\n')).reverse else input
  let lines := (bareLines input).map fun l => l.dropWhile fun c => c == ' ' || c == '\t'
  let words :=
    if g.has '0' then (input.splitOnP (·.toNat = 0)).filter (!·.isEmpty)
    else match g.value? 'd' with
      | some (d :: _) =>
        let d := if (g.value? 'd') = some ['\\', 'n'] then '\n' else d
        let pieces := input.splitOnP (· == d)
        if pieces.getLast? = some [] then pieces.dropLast else pieces
      | _ => inputWords none none (input.length + 1) input
  let number (letter : Char) : Option Nat := (g.value? letter).bind natural?
  let inGroups (groups : List (List Bytes)) : List (List Bytes) :=
    if groups.isEmpty then (if g.has 'r' || more then [] else [command])
    else groups.map (command ++ ·)
  match g.value? 'I', number 'n', number 'L' with
  | some sign, _, _ =>
    (lines.filter (!·.isEmpty)).map fun l =>
      command.map fun w => substituteSign sign l (w.length + 1) w
  | none, some n, _ =>
    let groups := chunks (max n 1) words.length words
    inGroups (if more then groups.filter fun c => n ≤ c.length else groups)
  | none, none, some n =>
    let full := lines.filter (!·.isEmpty)
    let groups := (chunks (max n 1) full.length full).map fun ls =>
      ls.flatMap fun l => inputWords none none (l.length + 1) l
    inGroups groups
  | none, none, none =>
    if more || (words.isEmpty && g.has 'r') then [] else [command ++ words]

/-- The answer of `xargs` to the statuses of its commands. -/
def argumentsStatus (statuses : List Nat) : Nat :=
  if statuses.contains 127 then 127
  else if statuses.contains 126 then 126
  else if statuses.contains 255 then 124
  else if statuses.any (· ≥ 128) then 125
  else if statuses.any (· ≠ 0) then 123
  else 0

abbrev Start := List (Bytes × Bytes) → List Bytes → Run Ending

/-- One command after another, up to one that waits. -/
def inTurn (start : Start) (environment : List (Bytes × Bytes)) (statuses : List Nat) :
    List (List Bytes) → Run Ending
  | [] => return .finished (argumentsStatus statuses.reverse)
  | command :: rest => do
    match ← start environment command with
    | .finished status => inTurn start environment (status :: statuses) rest
    | ending => return ending

def seeHelp (name : Bytes) : Bytes :=
  "Try '".toList ++ name ++ " --help' for more information.".toList

/-- How long a command does nothing but pass the time. -/
def pauseOf : List Bytes → Nat
  | [] => 0
  | name :: arguments =>
    if (cutPath name).2 == "sleep".toList then
      (arguments.filterMap Job.interval?).foldl (· + ·) 0
    else 0

/-! ## Searching -/

/-- What a search has come to: its status, and the files that wait for a command for
all of them. -/
structure SearchState where
  status : Nat
  later : List (List Bytes × Bytes)

abbrev Searching := StateT SearchState Run

def searchFault (name text : Bytes) : Searching Unit := do
  let _ ← write 2 (name ++ ": ".toList ++ text ++ ['\n'])
  modify fun s => { s with status := 1 }

def deleteFound (name : Bytes) (f : Search.Found) : Searching Bool := do
  let fs ← files
  let refused (reason : String) : Searching Bool := do
    searchFault name ("cannot delete ".toList ++ Quoting.always f.path ++ ": ".toList ++
      reason.toList)
    return false
  match fs.find ⟨Bytes.text f.path⟩, fs.locate ⟨Bytes.text f.path⟩ with
  | .ok (.directory (_ :: _)), _ => refused "Directory not empty"
  | .ok _, .ok place =>
    if f.path != ['.'] then setFiles (fs.set place none)
    return true
  | .error fault, _ | _, .error fault => refused fault.reason

def foundAction (start : Start) (name : Bytes) (environment : List (Bytes × Bytes)) :
    Search.Action → Search.Found → Searching Bool
  | .print ending, f => do
    let _ ← write 1 (f.path ++ [ending])
    return true
  | .delete, f => deleteFound name f
  | .command words true, f => do
    modify fun s => { s with later := s.later ++ [(words, f.path)] }
    return true
  | .command words false, f => do
    let words := words.map fun w => substituteSign ['\x7b', '\x7d'] f.path (w.length + 1) w
    return (← statusOf (← start environment words)) == 0

/-- Run the commands for all files, one after another. -/
def runLater (start : Start) (environment : List (Bytes × Bytes)) :
    Nat → List (List Bytes × Bytes) → Searching Unit
  | 0, _ | _, [] => return ()
  | fuel + 1, (words, path) :: rest => do
    let same := rest.filter fun l => l.1 == words
    let paths := path :: same.map (·.2)
    if (← statusOf (← start environment (words ++ paths))) ≠ 0 then
      modify fun s => { s with status := 1 }
    runLater start environment fuel (rest.filter fun l => l.1 != words)

def searchFrom (start : Start) (name : Bytes) (environment : List (Bytes × Bytes))
    (q : Search.Question) (bounds : Search.Bounds) : List Bytes → Searching Unit
  | [] => return ()
  | path :: paths => do
    match (← files).find ⟨Bytes.text path⟩ with
    | .error fault => searchFault name (Quoting.always path ++ ": ".toList ++ fault.reason.toList)
    | .ok node =>
      for f in Search.walk bounds 0 Job.maxDepth path node do
        let _ ← q.answer (foundAction start name environment) f
    searchFrom start name environment q bounds paths

def search (start : Start) (name : Bytes) (environment : List (Bytes × Bytes))
    (words : List Bytes) : Run Ending := do
  let isPlace (w : Bytes) : Bool := w.head? != some '-' && w != ['!'] && w != ['(']
  let places := words.takeWhile isPlace
  match Search.ofWords (words.drop places.length) with
  | .error fault =>
    tell (name ++ ": ".toList ++ fault)
    return .finished 1
  | .ok (q, bounds) =>
    let work : Searching Unit := do
      searchFrom start name environment q bounds (if places.isEmpty then [['.']] else places)
      let later := (← get).later
      runLater start environment later.length later
    let (_, s) ← work.run ⟨0, []⟩
    return .finished s.status

/-- Where commands are, for those that are found at all. -/
def which (r : Rules) (environment : List (Bytes × Bytes)) (words : List Bytes) : Run Ending := do
  let (_, names) := words.partition fun w => w.head? == some '-'
  let mut status := if names.isEmpty then 1 else 0
  for name in names do
    match ← findTarget r.programs (searchPath environment) name with
    | (_, .refused _) => status := 1
    | (path, _) =>
      let _ ← write 1 (path.getD name ++ ['\n'])
  return .finished status

/-- Run what is behind a launcher by `start`. -/
def launch (r : Rules) (start : Start) (l : Launcher) (name : Bytes)
    (environment : List (Bytes × Bytes)) (words : List Bytes) : Run Ending := do
  let options (flags valued : String) (go : Job.Given → Run Ending) : Run Ending := do
    match Job.read ⟨flags, valued, []⟩ true (words.length + 1) ⟨[], []⟩ words with
    | .ok g => go g
    | .error fault =>
      tell (name ++ ": ".toList ++ fault)
      tell (seeHelp name)
      return .finished 125
  match l with
  | .environment =>
    options "i0v" "uC" fun g => do
      let isLone := g.operands.head? == some ['-']
      let cleared := g.has 'i' || isLone
      let base := if cleared then [] else environment.filter fun v => !(g.values 'u').contains v.1
      let (entries, command) :=
        leadingAssignments (if isLone then g.operands.drop 1 else g.operands)
      let new := entries.foldl putEntry base
      if command.isEmpty then
        let failed ← write 1 (new.flatMap fun v => v.1 ++ '=' :: v.2 ++ ['\n'])
        return .finished (if failed.isSome then 125 else 0)
      else start new command
  | .arguments =>
    options "0rtpx" "nILdPsE" fun g => do
      match ← available 0 with
      | .ok (input, more) =>
        consume 0 input.length
        let ending ← inTurn start environment [] (argumentCommands g more input)
        return if more then .waiting else ending
      | .error _ => inTurn start environment [] (argumentCommands g false [])
  | .timeLimit =>
    options "v" "sk" fun g => do
      match g.operands with
      | limit :: command@(_ :: _) =>
        match Job.interval? limit with
        | some limit =>
          if 0 < limit && limit < pauseOf command then return .finished 124
          else start environment command
        | none =>
          tell (name ++ ": invalid time interval ".toList ++ Quoting.always limit)
          tell (seeHelp name)
          return .finished 125
      | _ =>
        tell (seeHelp name)
        return .finished 125
  | .search => search start name environment words
  | .finder => which r environment words
  | .plain flags valued n =>
    options flags valued fun g => do
      match g.operands.drop n with
      | [] =>
        tell (name ++ ": missing operand".toList)
        tell (seeHelp name)
        return .finished 125
      | command => start environment command

/-! ## Starting -/

/-- Start what has been found under a name.  `start` is for commands that a launcher
runs in its turn. -/
def startTarget (r : Rules) (start : Launcher → Bytes → Start)
    (environment : List (Bytes × Bytes)) (name path : Bytes) (arguments : List Bytes) :
    Target → Run Ending
  | .program job => runProgram job name arguments environment
  | .shell => inShell r name environment (shellMain r name arguments)
  | .launcher l => launch r (start l name) l name environment arguments
  | .script content =>
    match interpreter? content with
    | none => inShell r name environment (shellMain r name (path :: arguments))
    | some (program, word) =>
      start .environment name environment (program :: word.toList ++ path :: arguments)
  | .refused _ => return .finished 127

/-- Start a command from within a program that runs commands. -/
def startFrom (r : Rules) : Nat → Launcher → Bytes → Start
  | 0, _, _, _, _ => return .exhausted
  | _, _, _, _, [] => return .finished 0
  | fuel + 1, launcher, runner, environment, name :: arguments => do
    let (path, target) ← findTarget r.programs (searchPath environment) name
    match target with
    | .refused reason =>
      tell (launchFault launcher runner name reason)
      return .finished (if isMissing reason then 127 else 126)
    | target =>
      startTarget r (startFrom r fuel) environment name (path.getD name) arguments target

/-- Commands may be started by one another as deep as this. -/
def maxLaunches : Nat := 100

/-- Start a command from the shell, or tell why that is not possible. -/
def external (r : Rules) (environment : List (Bytes × Bytes)) (name : Bytes)
    (arguments : List Bytes) : Run (Except String Ending) := do
  let (path, target) ← findTarget r.programs (searchPath environment) name
  let missing : Option String ← match target with
    | .refused reason => pure (some reason)
    | .script content =>
      match interpreter? content with
      | some (program, _) =>
        match (← findTarget r.programs [] program).2 with
        | .refused reason => pure (some reason)
        | _ => pure none
      | none => pure none
    | _ => pure none
  match missing with
  | some reason => return .error reason
  | none =>
    return .ok (← startTarget r (startFrom r maxLaunches) environment name (path.getD name)
      arguments target)

end Run
end Shell
end CheckScript
