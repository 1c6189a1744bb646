/-
Everything that can end a test.
-/
import CheckScript.Duration
import CheckScript.Files.Fault
import CheckScript.Path
import CheckScript.Record.Mi
import CheckScript.Script.Diagnostic
import CheckScript.Script.Fault
import CheckScript.Signal
import CheckScript.Source.Fault

namespace CheckScript

/-- How a command ended. -/
inductive ExitStatus where
  | code (n : Nat)
  | signal (n : Nat)
deriving DecidableEq, Repr

namespace ExitStatus

def success : ExitStatus := .code 0

def text : ExitStatus → String
  | code n => s!"exit status: {n}"
  | signal n =>
    match Signal.name? n with
    | some name => s!"signal: {n} (SIG{name})"
    | none => s!"signal: {n}"

end ExitStatus

inductive ConfigFault where
  | blankCommand
  | noDebugger
  | binaryWithDirectory
  | noSources (directory : Path)
deriving DecidableEq, Repr

namespace ConfigFault

def message : ConfigFault → String
  | blankCommand => "debugger command is empty"
  | noDebugger =>
    "no debugger command configured; set [debugger] command or pass --debugger"
  | binaryWithDirectory => "--binary can only be used with a single test source"
  | noSources directory => s!"no test sources found in '{directory.text}'"

end ConfigFault

inductive DeltaFault where
  | noFileName
  | notConfigured
  | exited (status : ExitStatus) (errors : String)
  | nulInCall
  | noArtifact (path : Path)
deriving DecidableEq, Repr

namespace DeltaFault

def message : DeltaFault → String
  | noFileName => "target has no file name"
  | notConfigured => "no delta generator is configured"
  | exited status errors => s!"command exited with {status.text}: {errors}"
  | nulInCall => "nul byte found in provided data"
  | noArtifact path => s!"command did not produce {path.text}"

end DeltaFault

/-- Assertions and faults of a script carry the names of the checkpoints they
have left, the innermost first. -/
inductive Failure where
  | duplicateTag (path : Path) (duplicate : DuplicateTag)
  | configuration (fault : ConfigFault)
  | configurationText (reason : String)
  | unreadable (path : Path) (fault : FileFault)
  | source (path : Path) (fault : SourceFault)
  | rejected (diagnostics : List Script.Diagnostic)
  | script (line : Nat) (fault : Script.Fault) (checkpoints : List String)
  | assertion (line : Nat) (message : String) (checkpoints : List String)
  | timedOut (wanted : String) (timeout : Duration)
  | outputClosed (wanted : String) (elapsed : Duration)
  | record (fault : Mi.LineFault)
  | notStarted (command reason : String)
  | inputClosed
  | delta (target : String) (fault : DeltaFault)
  | system (fault : FileFault)
deriving DecidableEq, Repr

/-- Coarse classes of failures, for reports. -/
inductive FailureKind where
  | configuration
  | compile
  | protocol
  | assertion
  | internal
deriving DecidableEq, Repr

namespace FailureKind

def name : FailureKind → String
  | configuration => "configuration"
  | compile => "compile"
  | protocol => "protocol"
  | assertion => "assertion"
  | internal => "internal"

end FailureKind

namespace Failure

def kind : Failure → FailureKind
  | duplicateTag .. | configuration _ | configurationText _ | unreadable .. | source .. =>
    .configuration
  | rejected _ => .compile
  | timedOut .. | outputClosed .. | record _ | notStarted .. | inputClosed => .protocol
  | assertion .. => .assertion
  | script .. | delta .. | system _ => .internal

/-- A message with the checkpoints it has left. -/
def within (message : String) (checkpoints : List String) : String :=
  checkpoints.foldl (fun m name => s!"{m} (in checkpoint '{name}')") message

def message : Failure → String
  | duplicateTag path d =>
    s!"Tag '{d.tag}' presented more than once in file '{path.text}' " ++
      s!"(lines {d.first} and {d.second})"
  | configuration fault => s!"Configuration error: {fault.message}"
  | configurationText reason => s!"Invalid configuration file: {reason}"
  | unreadable path fault => s!"Failed to read file '{path.text}': {fault.message}"
  | source path fault => s!"{path.text}:{fault.line}: {fault.problem.message}"
  | rejected diagnostics =>
    "Script failed to compile:\n" ++
      Text.joinWith "\n" (diagnostics.map fun d => s!"  {d.text}")
  | script line fault checkpoints =>
    s!"Script error at line {line}: {within fault.message checkpoints}"
  | assertion line message checkpoints =>
    s!"Assertion failed at line {line}: {within message checkpoints}"
  | timedOut wanted timeout => s!"Expected '{wanted}' in {timeout.text}"
  | outputClosed wanted elapsed =>
    s!"Expected '{wanted}' but debugger output closed after {elapsed.text}"
  | record fault => s!"Failed to parse protocol record '{fault.line}': {fault.reason}"
  | notStarted command reason => s!"Unable to run process '{command}': {reason}"
  | inputClosed => "Debugger input is closed"
  | delta target fault => s!"Failed to generate delta for '{target}': {fault.message}"
  | system fault => s!"IO error: {fault.message}"

/-- The failure as it leaves the checkpoint `name`. -/
def inCheckpoint (name : String) : Failure → Failure
  | script line fault checkpoints => .script line fault (checkpoints ++ [name])
  | assertion line message checkpoints => .assertion line message (checkpoints ++ [name])
  | f => f

end Failure
end CheckScript
