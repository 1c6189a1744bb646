/-
The shell that runs command lines on files alone.  It is for the program to run with where there
is no machine around; theorems about command lines are about every `Shell`.
-/
import CheckScript.Outside.Shell.Evaluate
import CheckScript.Outside.Shell.Programs
import CheckScript.Shell

namespace CheckScript
namespace Shell

/-- The number under which a shell knows itself. -/
def ownNumber : Nat := 4242

/-- Commands may stand in one another as deep as this. -/
def maxNested : Nat := 6000

/-- The variables of every process. -/
def surroundingVariables : List (Bytes × Bytes) :=
  [("HOME".toList, "/root".toList),
    ("PATH".toList, "/usr/local/sbin:/usr/local/bin:/usr/sbin:/usr/bin:/sbin:/bin".toList)]

/-- A process before anything has been done in it. -/
def startMachine (f : Files) (input : Bytes) (inputOpen : Bool) : Machine where
  files := f
  input := input
  inputOpen := inputOpen
  output := ByteArray.empty
  errors := ByteArray.empty
  pipes := #[]
  descriptions := #[.input, .output, .errors]
  runnable := []
  processes := ownNumber - 1
  pending := []
  ended := []
  number := ownNumber - 1
  here := f.here
  streams := [(0, 0), (1, 1), (2, 2)]
  bindings := []
  functions := []
  name := "sh".toList
  arguments := []
  status := 0
  captured := 0
  line := 0
  caller := none
  options := []
  traps := []
  loops := 0
  depth := 0
  kept := []
  jobs := []
  optionPlace := (0, 0)
  mask := 18
  failedWrite := false

/-- What a command line has come to. -/
structure Session where
  ending : Ending
  output : ByteArray
  errors : ByteArray
  files : Files

/-- Whether the command line has ended. -/
def Session.isOver (s : Session) : Bool :=
  match s.ending with
  | .finished _ | .killed _ => true
  | .waiting | .exhausted => false

/-- Run a command line on an input, which may go on behind what is given of it. -/
def session (command : Bytes) (environment : List (String × String)) (f : Files) (input : Bytes)
    (inputOpen : Bool) : Session :=
  let rules : Rules := ⟨programs, Run.evaluate programs maxNested⟩
  let given := environment.map fun v => (Bytes.ofText v.1, Bytes.ofText v.2)
  let bindings := given.foldl Run.putEntry surroundingVariables
  let bindings := Run.putEntry bindings ("PWD".toList, Run.placeText f.here)
  let run : Run Ending := Run.inShell rules "sh".toList bindings
    (Run.shellMain rules "sh".toList [['-', 'c'], command])
  let (result, m) := run.run.run (startMachine f input inputOpen)
  { ending := match result with
      | .ok ending => ending
      | .error stop => Run.endingOf stop
    output := m.output
    errors := m.errors
    files := { m.files with here := f.here } }

def statusOf : Ending → ExitStatus
  | .finished status => .code status
  | .killed signal => .signal signal
  | .waiting | .exhausted => .code 0

/-- The shell for processes with some variables.  It gives commands no input. -/
def withVariables (bindings : List (String × String)) : Shell := fun call f =>
  let inside := match f.enter call.directory with
    | .ok inside => inside
    | .error _ => f
  let s := session (Bytes.ofText call.command) (bindings ++ call.environment) inside [] false
  { status := statusOf s.ending
    output := Bytes.text (Bytes.ofArray s.output)
    errors := Bytes.text (Bytes.ofArray s.errors)
    files := { s.files with here := f.here } }

def standard : Shell := withVariables []

end Shell
end CheckScript
