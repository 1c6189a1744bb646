/-
Test cases: sources with the programs built from them.
-/
import CheckScript.Failure
import CheckScript.Files.Tree

namespace CheckScript

structure TestCase where
  name : String
  source : Path
  binary : Path
deriving DecidableEq, Repr

namespace TestCase

/-- The program is taken to stand beside its source. -/
def ofSource (source : Path) : TestCase where
  name := source.fileStem.getD source.text
  source := source
  binary := source.withExtension ""

def withBinary (c : TestCase) (binary : Path) : TestCase := { c with binary := binary }

def extensions : List String := ["rs", "cs", "c", "cpp"]

/-- Whether a path looks like a test source. -/
def isSource (p : Path) : Bool :=
  match p.extension with
  | none => false
  | some extension => extensions.contains extension

/- The test sources at or below a path.  Only files count, whatever the name of
a directory looks like. -/
mutual

def sourcesAt (p : Path) : FileNode → List Path
  | .file _ => if isSource p then [p] else []
  | .directory entries => sourcesIn p entries

def sourcesIn (p : Path) : List (String × FileNode) → List Path
  | [] => []
  | (name, node) :: entries => sourcesAt (p.join ⟨name⟩) node ++ sourcesIn p entries

end

/-- The cases of all test sources below a directory, in the order of their
paths. -/
def allBelow (f : Files) (directory : Path) : Except Failure (List TestCase) :=
  match f.find directory with
  | .error fault => .error (.unreadable directory fault)
  | .ok (.file _) => .error (.unreadable directory .notDirectory)
  | .ok (.directory entries) =>
    .ok (((sourcesIn directory entries).mergeSort Path.le).map ofSource)

end TestCase
end CheckScript
