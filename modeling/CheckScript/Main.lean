/-
The program.  It reads the files that its arguments name and leaves all else
to the command line.  For a directory the names of the files below it come from
standard input, one a line.
-/
import CheckScript.CommandLine.Host
import CheckScript.CommandLine.Perform

namespace CheckScript
namespace CommandLine

/-- How often a loop of a script may run. -/
def loopLimit : Nat := 1000000000000

/-- No files yet, seen from the directory `place`. -/
def filesFrom (place : String) : Files :=
  let root : Files := { root := .empty, here := [] }
  match root.makeDirectories ⟨place⟩ with
  | .error _ => root
  | .ok made => (made.enter ⟨place⟩).toOption.getD made

/-- Take a file over.  One that cannot be read is taken to be missing. -/
def takeFile (f : Files) (name : String) : IO Files := do
  try
    let bytes ← IO.FS.readBinFile name
    return (f.install ⟨name⟩ bytes).toOption.getD f
  catch _ => return f

partial def takeNamed (f : Files) (input : IO.FS.Stream) : IO Files := do
  let line ← input.getLine
  if line.isEmpty then return f
  takeNamed (← takeFile f (Text.trim line)) input

/-- Take over what is at a path. -/
def takePath (f : Files) (name : String) : IO Files := do
  try
    let bytes ← IO.FS.readBinFile name
    return (f.install ⟨name⟩ bytes).toOption.getD f
  catch
    | .inappropriateType .. =>
      let made := (f.makeDirectories ⟨name⟩).toOption.getD f
      takeNamed made (← IO.getStdin)
    | _ => return f

/-- The path that a command works on. -/
def subject : Command → Path
  | .run c => c.path
  | .extract path => path
  | .tags path _ => path

/-- The configuration file that a command reads. -/
def configuration (d : Directories) : Command → Option Path
  | .run c => some (c.config.getD d.configFile)
  | _ => none

def takeFor (d : Directories) (f : Files) (c : Command) : IO Files := do
  let taken ← takePath f (subject c).text
  match configuration d c with
  | none => return taken
  | some path => takeFile taken path.text

/-- Carry out the command that the words of the command line give. -/
def program (args : List String) : IO UInt32 := do
  let home := (← IO.getEnv "HOME").getD "/"
  let directories := Directories.ofEnvironment home (← IO.getEnv "XDG_CONFIG_HOME")
    (← IO.getEnv "XDG_CACHE_HOME")
  let empty := filesFrom ((← IO.getEnv "PWD").getD "/")
  let files ← match read args with
    | .ok (.carryOut i) => takeFor directories empty i.command
    | _ => pure empty
  let bindings := [("HOME", home)]
  let reply := answer directories (selfContained bindings) loopLimit args files
  IO.print reply.output
  IO.eprint reply.errors
  return UInt32.ofNat reply.code

end CommandLine
end CheckScript

def main (args : List String) : IO UInt32 := CheckScript.CommandLine.program args
