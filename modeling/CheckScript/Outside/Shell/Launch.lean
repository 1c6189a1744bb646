/-
Calling programs: finding them, and letting them work on the streams of a
process.
-/
import CheckScript.Outside.Shell.Machine
import CheckScript.Outside.Shell.Program.Basic

namespace CheckScript
namespace Shell
namespace Run

/-! ## Finding -/

/-- Programs that run another command. -/
inductive Launcher where
  | environment
  | arguments
  | timeLimit
  | search
  | finder
  | plain (flags valued : String) (operands : Nat)

/-- What a command name stands for outside the shell. -/
inductive Target where
  | program (job : Job Unit)
  | shell
  | launcher (l : Launcher)
  | script (content : Bytes)
  | refused (reason : String)

/-- Where programs are. -/
def programDirectories : List String := ["/usr/bin", "/bin"]

def launcher? (name : Bytes) : Option Launcher :=
  match String.ofList name with
  | "env" => some .environment
  | "xargs" => some .arguments
  | "timeout" => some .timeLimit
  | "find" => some .search
  | "which" => some .finder
  | "nohup" => some (.plain "" "" 0)
  | "nice" => some (.plain "" "n" 0)
  | "stdbuf" => some (.plain "" "ioe" 0)
  | "setsid" => some (.plain "cfw" "" 0)
  | _ => none

/-- The names of shells. -/
def shellNames : List String := ["sh", "dash", "bash"]

/-- What is installed under a name. -/
def installed? (programs : List Program) (name : Bytes) : Option Target :=
  let text := String.ofList name
  if shellNames.contains text then some .shell
  else
    match launcher? name with
    | some l => some (.launcher l)
    | none => (programs.find? fun p => p.name == text).map fun p => .program p.job

/-- The directory and the last component of a path with slashes. -/
def cutPath (path : Bytes) : Bytes × Bytes :=
  let name := (path.reverse.takeWhile (· != '/')).reverse
  (path.take (path.length - name.length - 1), name)

/-- The command at a path. -/
def targetAt (programs : List Program) (path : Bytes) : Run Target := do
  let m ← get
  let (directory, name) := cutPath path
  let isStandard := programDirectories.contains (String.ofList directory)
  match (if isStandard then installed? programs name else none) with
  | some t => return t
  | none =>
    let f := m.ownFiles
    match f.locate ⟨Bytes.text path⟩ with
    | .error fault => return .refused fault.reason
    | .ok place =>
      match f.get? place with
      | none => return .refused FileFault.notFound.reason
      | some (.directory _) => return .refused "Permission denied"
      | some (.file bytes) =>
        if m.runnable.contains place then return .script (Bytes.ofArray bytes)
        else return .refused "Permission denied"

/-- The directories to search. -/
def searchPath (environment : List (Bytes × Bytes)) : List Bytes :=
  let path := match environment.find? fun v => v.1 == "PATH".toList with
    | some v => v.2
    | none => "/usr/local/sbin:/usr/local/bin:/usr/sbin:/usr/bin:/sbin:/bin".toList
  path.splitOnP (· == ':')

def isRefused : Target → Bool
  | .refused _ => true
  | _ => false

/-- Reasons that only mean that nothing is there. -/
def isMissing (reason : String) : Bool :=
  reason == FileFault.notFound.reason || reason == FileFault.notDirectory.reason

/-- Search directories for a command.  The answer is its path as well. -/
def searchIn (programs : List Program) (name : Bytes) (refusal : String) :
    List Bytes → Run (Option Bytes × Target)
  | [] => return (none, .refused refusal)
  | directory :: rest => do
    let path := if directory.isEmpty then name else directory ++ '/' :: name
    let shown := if path.contains '/' then path else ['.', '/'] ++ path
    match ← targetAt programs shown with
    | .refused reason => searchIn programs name (if isMissing reason then refusal else reason) rest
    | t => return (some path, t)

/-- The command that a name stands for, and its path if it has been searched for. -/
def findTarget (programs : List Program) (path : List Bytes) (name : Bytes) :
    Run (Option Bytes × Target) := do
  if name.contains '/' then return (some name, ← targetAt programs name)
  else if name.isEmpty then return (none, .refused "Permission denied")
  else searchIn programs name FileFault.notFound.reason path

/-- A refusal as the shell words it, and the status that goes with it. -/
def refusalText (reason : String) : String := if isMissing reason then "not found" else reason

def refusalStatus (reason : String) : Nat :=
  if isMissing reason || reason == FileFault.nameTooLong.reason then 127 else 126

/-! ## Working -/

/-- Write what a program has written, in its order.  The answer is why its output
could not be written. -/
def writeAll (fault : Option String) : List (Nat × Bytes) → Run (Option String)
  | [] => return fault
  | (stream, bytes) :: rest => do
    if bytes.isEmpty then writeAll fault rest
    else
      let r ← write stream bytes
      writeAll (if stream = 1 then fault.orElse fun _ => r else fault) rest

def isFile (stream : Nat) : Run Bool := do
  let m ← get
  match (← indexOf? stream).bind fun i => m.descriptions[i]? with
  | some (.file ..) => return true
  | _ => return false

/-- Let a program work. -/
def runProgram (job : Job Unit) (name : Bytes) (arguments : List Bytes)
    (environment : List (Bytes × Bytes)) : Run Ending := do
  let m ← get
  let input ← available 0
  let desk : Desk :=
    { name, arguments, environment, files := m.ownFiles, runnable := m.runnable
      input := input.map (·.1)
      inputOpen := match input with
        | .ok r => r.2
        | .error _ => false
      inputIsFile := ← isFile 0, used := 0, written := [], held := [], status := 0 }
  let (waits, d) := Program.work job desk
  consume 0 d.used
  modify fun m => { m with files := { d.files with here := m.files.here }, runnable := d.runnable }
  match ← attempt (writeAll none d.written.reverse) with
  | .error .brokenPipe => return .finished 141
  | .error stop => throw stop
  | .ok fault =>
    match fault with
    | none => return if waits then .waiting else .finished d.status
    | some reason =>
      let what := if name == "cat".toList && reason == "Bad file descriptor" then
          "standard output" else "write error"
      let _ ← write 2 (name ++ s!": {what}: ".toList ++ reason.toList ++ ['\n'])
      return .finished (max 1 d.status)

end Run
end Shell
end CheckScript
