/-
Files and directories as a tree, and a place in it from which relative paths
are read.
-/
import CheckScript.Files.Fault
import CheckScript.Path

namespace CheckScript

inductive FileNode where
  | file (bytes : ByteArray)
  | directory (entries : List (String × FileNode))

namespace FileNode

def empty : FileNode := .directory []

def isDirectory : FileNode → Bool
  | .directory _ => true
  | .file _ => false

def lookup (name : String) : List (String × FileNode) → Option FileNode
  | [] => none
  | (n, node) :: entries => if n = name then some node else lookup name entries

/-- Replace or add the entry `name`, or remove it. -/
def update (name : String) (node : Option FileNode) :
    List (String × FileNode) → List (String × FileNode)
  | [] => node.toList.map fun n => (name, n)
  | (n, old) :: entries =>
    if n = name then node.toList.map (fun new => (name, new)) ++ entries
    else (n, old) :: update name node entries

def child? (node : FileNode) (name : String) : Option FileNode :=
  match node with
  | .directory entries => lookup name entries
  | .file _ => none

/-- The node below `node` at the end of the names. -/
def get? (node : FileNode) : List String → Option FileNode
  | [] => some node
  | name :: names => (node.child? name).bind fun n => get? n names

/-- Set or remove the node at the end of the names.  Where the way there is
missing, nothing changes. -/
def set (node : FileNode) (value : Option FileNode) : List String → FileNode
  | [] => value.getD node
  | name :: names =>
    match node with
    | .file bytes => .file bytes
    | .directory entries =>
      match names with
      | [] => .directory (update name value entries)
      | _ :: _ =>
        match lookup name entries with
        | none => .directory entries
        | some n => .directory (update name (some (set n value names)) entries)

end FileNode

/-- `here` names the directories from the root to the working directory. -/
structure Files where
  root : FileNode
  here : List String

namespace Files

def get? (f : Files) (place : List String) : Option FileNode := f.root.get? place

def set (f : Files) (place : List String) (value : Option FileNode) : Files :=
  { f with root := f.root.set value place }

def maxNameSize : Nat := 255

/-- Follow the pieces of a path from `place`.  All but the last must lead to
directories; the last may name something that is not there yet. -/
def walk (f : Files) (place : List String) : List (List Char) → Except FileFault (List String)
  | [] => .ok place
  | piece :: pieces =>
    match f.get? place with
    | none => .error .notFound
    | some (.file _) => .error .notDirectory
    | some (.directory _) =>
      match Path.ofPiece piece with
      | none => walk f place pieces
      | some (.name name) =>
        if maxNameSize < name.utf8ByteSize then .error .nameTooLong
        else walk f (place ++ [name]) pieces
      | some _ => walk f place.dropLast pieces

/-- Where a path leads. -/
def locate (f : Files) (p : Path) : Except FileFault (List String) :=
  if p.text.isEmpty then .error .notFound
  else if p.text.toList.contains '\x00' then .error .nulInPath
  else walk f (if p.isAbsolute then [] else f.here) (Text.cut '/' p.text.toList)

def find (f : Files) (p : Path) : Except FileFault FileNode :=
  match f.locate p with
  | .error fault => .error fault
  | .ok place =>
    match f.get? place with
    | none => .error .notFound
    | some node => .ok node

def holds (f : Files) (p : Path) : Bool :=
  match f.find p with
  | .ok _ => true
  | .error _ => false

def isDirectory (f : Files) (p : Path) : Bool :=
  match f.find p with
  | .ok node => node.isDirectory
  | .error _ => false

def read (f : Files) (p : Path) : Except FileFault ByteArray :=
  match f.find p with
  | .error fault => .error fault
  | .ok (.directory _) => .error .isDirectory
  | .ok (.file bytes) => .ok bytes

def readText (f : Files) (p : Path) : Except FileFault String :=
  match f.read p with
  | .error fault => .error fault
  | .ok bytes =>
    match String.fromUTF8? bytes with
    | none => .error .notText
    | some text => .ok text

/-- The names in a directory, in no particular order. -/
def list (f : Files) (p : Path) : Except FileFault (List String) :=
  match f.find p with
  | .error fault => .error fault
  | .ok (.file _) => .error .notDirectory
  | .ok (.directory entries) => .ok (entries.map (·.1))

/-- Give a file its content; it is made if it is not there. -/
def write (f : Files) (p : Path) (bytes : ByteArray) : Except FileFault Files :=
  match f.locate p with
  | .error fault => .error fault
  | .ok place =>
    match f.get? place with
    | some (.directory _) => .error .isDirectory
    | _ => .ok (f.set place (some (.file bytes)))

def writeText (f : Files) (p : Path) (text : String) : Except FileFault Files :=
  f.write p text.toUTF8

def removeFile (f : Files) (p : Path) : Except FileFault Files :=
  match f.locate p with
  | .error fault => .error fault
  | .ok place =>
    match f.get? place with
    | none => .error .notFound
    | some (.directory _) => .error .isDirectory
    | some (.file _) => .ok (f.set place none)

/-- Make the directories that are missing on the way along the pieces. -/
def makeAlong (f : Files) (place : List String) : List (List Char) → Except FileFault Files
  | [] => .ok f
  | piece :: pieces =>
    match Path.ofPiece piece with
    | none => makeAlong f place pieces
    | some (.name name) =>
      let next := place ++ [name]
      if maxNameSize < name.utf8ByteSize then .error .nameTooLong
      else
        match f.get? next with
        | some (.directory _) => makeAlong f next pieces
        | some (.file _) =>
          if pieces.all (·.isEmpty) then .error .alreadyExists else .error .notDirectory
        | none => makeAlong (f.set next (some .empty)) next pieces
    | some _ => makeAlong f place.dropLast pieces

/-- Make a directory and those above it, as far as they are missing. -/
def makeDirectories (f : Files) (p : Path) : Except FileFault Files :=
  if p.text.toList.contains '\x00' then .error .nulInPath
  else makeAlong f (if p.isAbsolute then [] else f.here) (Text.cut '/' p.text.toList)

/-- Put a file in place, with the directories above it. -/
def install (f : Files) (p : Path) (bytes : ByteArray) : Except FileFault Files :=
  match f.makeDirectories p.above with
  | .error fault => .error fault
  | .ok made => made.write p bytes

/-- The same files seen from another directory. -/
def enter (f : Files) (p : Path) : Except FileFault Files :=
  match f.locate p with
  | .error fault => .error fault
  | .ok place =>
    match f.get? place with
    | none => .error .notFound
    | some (.file _) => .error .notDirectory
    | some (.directory _) => .ok { f with here := place }

end Files
end CheckScript
