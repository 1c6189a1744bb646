/-
Line tags: names between at signs that mark positions of a source.
-/
import CheckScript.Text.Blank
import CheckScript.Text.Lines

namespace CheckScript

/-- The pieces of a line that have an at sign on both sides. -/
def enclosedPieces (line : List Char) : List (List Char) :=
  ((Text.cut '@' line).drop 1).dropLast

/-- The tag of a line, if it has one.  Of several candidates the last counts. -/
def tagOfLine (line : List Char) : Option String :=
  ((enclosedPieces line).filter (! ·.isEmpty)).getLast?.map fun name =>
    String.ofList (Text.trimChars name)

/-- A tag that stands on two lines of one text. -/
structure DuplicateTag where
  tag : String
  first : Nat
  second : Nat
deriving DecidableEq, Repr

/-- Tag names with the lines they stand on, in ascending order of names. -/
structure LineTags where
  entries : List (String × Nat)
deriving DecidableEq, Repr

namespace LineTags

def empty : LineTags := ⟨[]⟩

def isEmpty (t : LineTags) : Bool := t.entries.isEmpty

def size (t : LineTags) : Nat := t.entries.length

def find? (name : String) : List (String × Nat) → Option Nat
  | [] => none
  | (n, line) :: rest => if n = name then some line else find? name rest

def get? (t : LineTags) (name : String) : Option Nat := find? name t.entries

def place (name : String) (line : Nat) : List (String × Nat) → List (String × Nat)
  | [] => [(name, line)]
  | (n, l) :: rest =>
    if name < n then (name, line) :: (n, l) :: rest else (n, l) :: place name line rest

def insert (t : LineTags) (name : String) (line : Nat) : LineTags := ⟨place name line t.entries⟩

def names (t : LineTags) : List String := t.entries.map (·.1)

/-- Read the tags of `lines`, the first of which has the number `line`. -/
def addLines (t : LineTags) (line : Nat) : List (List Char) → Except DuplicateTag LineTags
  | [] => .ok t
  | l :: ls =>
    match tagOfLine l with
    | none => addLines t (line + 1) ls
    | some tag =>
      match t.get? tag with
      | some first => .error ⟨tag, first, line⟩
      | none => addLines (t.insert tag line) (line + 1) ls

def ofText (text : String) : Except DuplicateTag LineTags :=
  addLines empty 1 (Text.lineChars text.toList)

end LineTags
end CheckScript
