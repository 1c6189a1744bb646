/-
Artifacts that bring a changed source into a running program.  A command
builds them; it finds the new source in a work directory and writes the artifact
beside it.
-/
import CheckScript.Shell
import CheckScript.Text.Blank

namespace CheckScript

structure DeltaCommand where
  command : String
  workDirectory : Path
deriving DecidableEq, Repr

namespace DeltaCommand

/-- The file that holds the new source for a target with this file name. -/
def sourcePath (g : DeltaCommand) (fileName : String) : Path := g.workDirectory.join ⟨fileName⟩

/-- The file that the artifact must be written to. -/
def outputPath (g : DeltaCommand) (fileName : String) : Path :=
  (g.sourcePath fileName).withExtension "delta"

def removeOld (f : Files) (p : Path) : Except FileFault Files :=
  if f.holds p then f.removeFile p else .ok f

/-- Put the new source in place and remove an artifact of an earlier call.  What
was done before a refusal stays done. -/
def prepare (g : DeltaCommand) (source fileName : String) (f : Files) :
    Except FileFault Unit × Files :=
  match f.makeDirectories g.workDirectory with
  | .error fault => (.error fault, f)
  | .ok made =>
    match made.writeText (g.sourcePath fileName) source with
    | .error fault => (.error fault, made)
    | .ok written =>
      match removeOld written (g.outputPath fileName) with
      | .error fault => (.error fault, written)
      | .ok ready => (.ok (), ready)

def call (g : DeltaCommand) (target fileName : String) : ShellCall where
  command := g.command
  environment := [("DELTA_SOURCE", (g.sourcePath fileName).text), ("DELTA_TARGET", target),
    ("DELTA_OUTPUT", (g.outputPath fileName).text)]
  directory := g.workDirectory

/-- What the command has come to. -/
def outcome (g : DeltaCommand) (target fileName : String) (r : ShellReply) :
    Except Failure Path :=
  if r.status ≠ .success then .error (.delta target (.exited r.status (Text.trim r.errors)))
  else if r.files.holds (g.outputPath fileName) then .ok (g.outputPath fileName)
  else .error (.delta target (.noArtifact (g.outputPath fileName)))

/-- No text for the shell can hold a NUL. -/
def holdsNul (text : String) : Bool := text.toList.contains '\x00'

/-- Build the artifact for `target` from new source text. -/
def build (shell : Shell) (g : DeltaCommand) (source target : String) (f : Files) :
    Except Failure Path × Files :=
  match (Path.mk target).fileName with
  | none => (.error (.delta target .noFileName), f)
  | some fileName =>
    match g.prepare source fileName f with
    | (.error fault, f) => (.error (.system fault), f)
    | (.ok _, f) =>
      if holdsNul g.command || holdsNul target then (.error (.delta target .nulInCall), f)
      else
        let r := shell (g.call target fileName) f
        (g.outcome target fileName r, r.files)

end DeltaCommand
end CheckScript
