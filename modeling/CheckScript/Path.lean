/-
Paths as text, read by components.  Repeated slashes, a slash at the end and
dots after the first component stand for nothing.
-/
import CheckScript.Text.Lines

namespace CheckScript

structure Path where
  text : String
deriving DecidableEq, Repr

namespace Path

inductive Component where
  | root
  | here
  | parent
  | name (text : String)
deriving DecidableEq, Repr

namespace Component

def rank : Component → Nat
  | root => 0
  | here => 1
  | parent => 2
  | name _ => 3

/-- The order in which listings show components; names go by their code points. -/
def before : Component → Component → Bool
  | name a, name b => a < b
  | a, b => a.rank < b.rank

end Component

def isAbsolute (p : Path) : Bool := p.text.toList.head? == some '/'

def ofPiece : List Char → Option Component
  | [] => none
  | ['.'] => none
  | ['.', '.'] => some .parent
  | cs => some (.name (String.ofList cs))

def components (p : Path) : List Component :=
  let pieces := Text.cut '/' p.text.toList
  let start :=
    if p.isAbsolute then [.root]
    else if pieces.head? == some ['.'] then [.here]
    else []
  start ++ pieces.filterMap ofPiece

/-- Whether the components of `a` come no later than those of `b`. -/
def noLater : List Component → List Component → Bool
  | [], _ => true
  | _ :: _, [] => false
  | a :: as, b :: bs => a.before b || (a == b && noLater as bs)

def le (p q : Path) : Bool := noLater p.components q.components

/-- Drop what stands for nothing at the end; the characters are given last
first. -/
def dropTail : List Char → List Char
  | '/' :: cs => dropTail cs
  | '.' :: '/' :: cs => dropTail cs
  | cs => cs

/-- The last component with the text before it, if that component is a name. -/
def splitLast (p : Path) : Option (List Char × List Char) :=
  let back := dropTail p.text.toList.reverse
  let name := (back.takeWhile (· != '/')).reverse
  if name = [] ∨ name = ['.'] ∨ name = ['.', '.'] then none
  else some ((back.dropWhile (· != '/')).reverse, name)

/-- The text before the last component. -/
def above (p : Path) : Path :=
  match p.splitLast with
  | none => p
  | some (directory, _) => ⟨String.ofList directory⟩

def fileName (p : Path) : Option String := p.splitLast.map fun s => String.ofList s.2

/-- A name as stem and extension.  A dot that begins the name starts no
extension. -/
def splitName (name : List Char) : List Char × Option (List Char) :=
  let back := name.reverse
  let stem := ((back.dropWhile (· != '.')).drop 1).reverse
  if stem.isEmpty then (name, none)
  else (stem, some (back.takeWhile (· != '.')).reverse)

def fileStem (p : Path) : Option String :=
  p.splitLast.map fun s => String.ofList (splitName s.2).1

def extension (p : Path) : Option String :=
  p.splitLast.bind fun s => (splitName s.2).2.map String.ofList

/-- The path with another extension; an empty one leaves no dot.  A name that is
two dots without its extension is the parent directory then, and that takes no
extension. -/
def withExtension (p : Path) (extension : String) : Path :=
  match p.splitLast with
  | none => p
  | some (directory, name) =>
    let stem := (splitName name).1
    if stem = ['.'] ∧ directory ++ name = p.text.toList then
      ⟨String.ofList (directory ++ ['.', '.'])⟩
    else
      let ending := if extension.isEmpty then [] else '.' :: extension.toList
      ⟨String.ofList (directory ++ stem ++ ending)⟩

/-- The path `q` as seen from `p`. -/
def join (p q : Path) : Path :=
  if q.isAbsolute then q
  else if p.text.isEmpty || p.text.toList.getLast? == some '/' then ⟨p.text ++ q.text⟩
  else ⟨p.text ++ "/" ++ q.text⟩

end Path
end CheckScript
