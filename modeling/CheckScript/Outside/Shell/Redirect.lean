/-
Redirections: streams joined to files, to other streams and to documents.
-/
import CheckScript.Outside.Shell.Expand

namespace CheckScript
namespace Shell
namespace Run

/-- What a redirection asks for, once its target has been expanded. -/
inductive Link where
  | opened (opening : Opening) (name : Bytes)
  | copy (other : Nat)
  | closed
  | document (text : Bytes)

/-- The number of a stream in a text of one digit. -/
def streamNumber? : Bytes → Option Nat
  | [c] => if isDigit c then some (c.toNat - 48) else none
  | _ => none

def expandLink (capture : Command → Run Bytes) (r : Redirection) : Run (Nat × Link) := do
  match r.opening with
  | .document => return (r.stream, .document (Mark.text (← expandPieces capture .text r.target)))
  | .duplicate =>
    let target ← expandText capture r.target
    match streamNumber? target with
    | some n => return (r.stream, .copy n)
    | none =>
      if target = ['-'] then return (r.stream, .closed)
      else failWith "Syntax error: Bad fd number".toList
  | opening => return (r.stream, .opened opening (← expandText capture r.target))

/-! ## Opening -/

/-- Files that are no files of the tree. -/
inductive Device where
  | nothing
  | full
  | terminal
  | stream (n : Nat)

def device? (name : Bytes) : Option Device :=
  match String.ofList name with
  | "/dev/null" | "/dev/zero" => some .nothing
  | "/dev/full" => some .full
  | "/dev/tty" => some .terminal
  | "/dev/stdin" => some (.stream 0)
  | "/dev/stdout" => some (.stream 1)
  | "/dev/stderr" => some (.stream 2)
  | _ =>
    if "/dev/fd/".toList.isPrefixOf name then (streamNumber? (name.drop 8)).map .stream
    else if "/proc/self/fd/".toList.isPrefixOf name then (streamNumber? (name.drop 14)).map .stream
    else none

/-- A file that could not be opened. -/
def refuseOpen {α : Type} (creating : Bool) (name : Bytes) (reason : String) : Run α :=
  failWith ((if creating then "cannot create " else "cannot open ").toList ++ name ++
    ": ".toList ++ reason.toList)

def openReason (creating : Bool) : FileFault → String
  | .notFound | .notDirectory => if creating then "Directory nonexistent" else "No such file"
  | fault => fault.reason

def openDevice (creating : Bool) (name : Bytes) : Device → Run Nat
  | .nothing => addDescription .nothing
  | .full => addDescription .full
  | .terminal => refuseOpen creating name "No such device or address"
  | .stream n => do
    match ← indexOf? n with
    | some index => return index
    | none => refuseOpen creating name (openReason creating .notFound)

/-- Open a file to read from it. -/
def openForReading (name : Bytes) : Run Nat := do
  let f ← files
  match f.locate ⟨Bytes.text name⟩ with
  | .error fault => refuseOpen false name (openReason false fault)
  | .ok place =>
    match f.get? place with
    | none => refuseOpen false name (openReason false .notFound)
    | some (.directory _) => addDescription .directory
    | some (.file _) => addDescription (.file place 0 false)

/-- Open a file to write to it; it is made if it is not there. -/
def openForWriting (name : Bytes) (opening : Opening) : Run Nat := do
  let f ← files
  match f.locate ⟨Bytes.text name⟩ with
  | .error fault => refuseOpen true name (openReason true fault)
  | .ok place =>
    match f.get? place with
    | some (.directory _) => refuseOpen true name FileFault.isDirectory.reason
    | some (.file _) =>
      if opening = .write ∧ (← get).option 'C' then
        refuseOpen true name FileFault.alreadyExists.reason
      if opening = .write ∨ opening = .replace then
        setFiles (f.set place (some (.file ByteArray.empty)))
      addDescription (.file place 0 (opening = .append))
    | none =>
      setFiles (f.set place (some (.file ByteArray.empty)))
      addDescription (.file place 0 (opening = .append))

def openFile (opening : Opening) (name : Bytes) : Run Nat := do
  let creating := opening ≠ .read
  match device? name with
  | some device => openDevice creating name device
  | none => if creating then openForWriting name opening else openForReading name

/-- Carry out a redirection. -/
def applyLink : Nat × Link → Run Unit
  | (stream, .closed) => closeStream stream
  | (stream, .copy other) => do
    match ← indexOf? other with
    | some index => join stream index
    | none => failWith (Bytes.ofNat other ++ ": Bad file descriptor".toList)
  | (stream, .document text) => do
    let index ← addPipe false
    setPipe index { ← pipe index with content := Bytes.toArray text }
    joinNew stream (.pipe index)
  | (stream, .opened opening name) => do join stream (← openFile opening name)

def applyLinks : List (Nat × Link) → Run Unit
  | [] => return ()
  | l :: ls => do
    applyLink l
    applyLinks ls

def expandLinks (capture : Command → Run Bytes) : List Redirection → Run (List (Nat × Link))
  | [] => return []
  | r :: rs => do
    let l ← expandLink capture r
    return l :: (← expandLinks capture rs)

end Run
end Shell
end CheckScript
