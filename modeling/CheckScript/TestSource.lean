/-
Source files with the script and the tags in them.
-/
import CheckScript.Failure
import CheckScript.Files.Tree
import CheckScript.Source.Scan

namespace CheckScript

structure TestSource where
  path : Path
  text : String
deriving DecidableEq, Repr

namespace TestSource

def load (f : Files) (p : Path) : Except Failure TestSource :=
  match f.readText p with
  | .error fault => .error (.unreadable p fault)
  | .ok text => .ok ⟨p, text⟩

def tags (s : TestSource) : Except Failure LineTags :=
  (LineTags.ofText s.text).mapError (.duplicateTag s.path)

def comments (s : TestSource) : Except Failure (List Comment) :=
  (Source.comments s.path s.text).mapError (.source s.path)

def script (s : TestSource) : Except Failure String := s.comments.map Source.script

end TestSource
end CheckScript
