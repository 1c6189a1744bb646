/-
What a shell has around it and in it while it runs, and how a run can stop.
-/
import CheckScript.Files.Tree
import CheckScript.Outside.Shell.Syntax

namespace CheckScript
namespace Shell

/-- What a stream leads to.  Streams that are duplicates of one another share
the place that a file has been read or written to. -/
inductive Description where
  | input
  | output
  | errors
  | nothing
  | full
  | file (place : List String) (offset : Nat) (appends : Bool)
  | directory
  | pipe (index : Nat)
deriving DecidableEq, Repr

/-- What has been written to a pipe, and how much of it has been read.  A pipe is
open as long as its writer may write more; one with a reader beside the writer
breaks when far too much is written. -/
structure Pipe where
  content : ByteArray
  position : Nat
  isOpen : Bool
  breaks : Bool

structure Variable where
  value : Option Bytes
  exported : Bool
  constant : Bool
deriving DecidableEq, Repr

/-- What a process has of its own.  `captured` is the status of the latest command
whose output has become part of a word; `caller` is the builtin in whose name
messages are written; `kept` are the values that calls have to put back, the
innermost first, `depth` is the number of functions that are being called, and `jobs`
are the numbers of the commands in the background, the latest first. -/
structure Context where
  number : Nat
  here : List String
  streams : List (Nat × Nat)
  bindings : List (Bytes × Variable)
  functions : List (Bytes × Command)
  name : Bytes
  arguments : List Bytes
  status : Nat
  captured : Nat
  line : Nat
  caller : Option Bytes
  options : List Char
  traps : List (Nat × Bytes)
  loops : Nat
  depth : Nat
  kept : List (List (Bytes × Option Variable))
  jobs : List Nat
  optionPlace : Nat × Nat
  mask : Nat
  failedWrite : Bool

/-- What has come of a process. -/
inductive Ending where
  | finished (status : Nat)
  | waiting
  | killed (signal : Nat)
  | exhausted
deriving DecidableEq, Repr

/-- A command of a process that is to run in the background. -/
structure Pending where
  number : Nat
  context : Context
  body : Command

/-- What all processes of a command line share, with the commands that are to run in
the background and how those that have run have ended. -/
structure World where
  files : Files
  input : Bytes
  inputOpen : Bool
  output : ByteArray
  errors : ByteArray
  pipes : Array Pipe
  descriptions : Array Description
  runnable : List (List String)
  processes : Nat
  pending : List Pending
  ended : List (Nat × Ending)

structure Machine extends World, Context

/-- Why a run goes no further.  A failure is one of the shell itself.  Only a
process that writes to a broken pipe breaks; a signal is for the whole shell. -/
inductive Stop where
  | exit (status : Nat)
  | failed (status : Nat)
  | returned (status : Nat)
  | broke (levels : Nat)
  | continued (levels : Nat)
  | waiting
  | brokenPipe
  | killed (signal : Nat)
  | exhausted
deriving DecidableEq, Repr

abbrev Run := ExceptT Stop (StateM Machine)

namespace Machine

def ownFiles (m : Machine) : Files := { m.files with here := m.here }

def option (m : Machine) (letter : Char) : Bool := m.options.contains letter

end Machine

namespace Run

def files : Run Files := return (← get).ownFiles

def setFiles (f : Files) : Run Unit := modify fun m => { m with files := f, here := f.here }

def setStatus (status : Nat) : Run Unit := modify fun m => { m with status }

/-! ## Streams -/

def addDescription (d : Description) : Run Nat := do
  let m ← get
  set { m with descriptions := m.descriptions.push d }
  return m.descriptions.size

def setDescription (index : Nat) (d : Description) : Run Unit :=
  modify fun m => { m with descriptions := m.descriptions.setIfInBounds index d }

def indexOf? (stream : Nat) : Run (Option Nat) := do
  return ((← get).streams.find? fun s => s.1 == stream).map (·.2)

def join (stream index : Nat) : Run Unit :=
  modify fun m => { m with
    streams := (stream, index) :: m.streams.filter fun s => s.1 != stream }

def closeStream (stream : Nat) : Run Unit :=
  modify fun m => { m with streams := m.streams.filter fun s => s.1 != stream }

/-- Join a stream to something new. -/
def joinNew (stream : Nat) (d : Description) : Run Unit := do join stream (← addDescription d)

def addPipe (breaks : Bool) : Run Nat := do
  let m ← get
  set { m with pipes := m.pipes.push ⟨ByteArray.empty, 0, false, breaks⟩ }
  return m.pipes.size

def pipe (index : Nat) : Run Pipe :=
  return (← get).pipes[index]?.getD ⟨ByteArray.empty, 0, false, false⟩

def setPipe (index : Nat) (p : Pipe) : Run Unit :=
  modify fun m => { m with pipes := m.pipes.setIfInBounds index p }

/-- More than this nobody reads from a pipe whose writer does not end. -/
def pipeLimit : Nat := Nat.pow 2 20

/-- Bytes written over others from a place on. -/
def overwrite (old : ByteArray) (offset : Nat) (new : ByteArray) : ByteArray :=
  if old.size = offset then old ++ new
  else
    let gap := ByteArray.mk (Array.replicate (offset - old.size) 0)
    old.extract 0 offset ++ gap ++ new ++ old.extract (offset + new.size) old.size

/-- Write to what a description leads to.  The answer is why it cannot be
written to. -/
def writeTo (index : Nat) (bytes : ByteArray) : Run (Option String) := do
  let m ← get
  match m.descriptions[index]? with
  | some .output => set { m with output := m.output ++ bytes }; return none
  | some .errors => set { m with errors := m.errors ++ bytes }; return none
  | some .nothing => return none
  | some .full => return if bytes.isEmpty then none else some "No space left on device"
  | some (.pipe i) =>
    let p ← pipe i
    if p.breaks ∧ pipeLimit < p.content.size then throw .brokenPipe
    setPipe i { p with content := p.content ++ bytes }
    return none
  | some (.file place offset appends) =>
    match m.files.get? place with
    | some (.file old) =>
      let start := if appends then old.size else offset
      let new := overwrite old start bytes
      set { m with
        files := m.files.set place (some (.file new))
        descriptions := m.descriptions.setIfInBounds index
          (.file place (start + bytes.size) appends) }
      return none
    | _ => return none
  | _ => return some "Bad file descriptor"

def write (stream : Nat) (bytes : Bytes) : Run (Option String) := do
  match ← indexOf? stream with
  | some index => writeTo index (Bytes.toArray bytes)
  | none => return some "Bad file descriptor"

/-- What can be read from a stream, and whether more may come. -/
def available (stream : Nat) : Run (Except String (Bytes × Bool)) := do
  let m ← get
  match (← indexOf? stream).bind fun i => m.descriptions[i]? with
  | some .input => return .ok (m.input, m.inputOpen)
  | some .nothing => return .ok ([], false)
  | some (.pipe i) =>
    let p ← pipe i
    return .ok (Bytes.ofArray (p.content.extract p.position p.content.size), p.isOpen)
  | some (.file place offset _) =>
    match m.files.get? place with
    | some (.file bytes) => return .ok (Bytes.ofArray (bytes.extract offset bytes.size), false)
    | _ => return .ok ([], false)
  | some .directory => return .error "Is a directory"
  | _ => return .error "Bad file descriptor"

/-- Leave behind some bytes that have been read. -/
def consume (stream count : Nat) : Run Unit := do
  let m ← get
  match ← indexOf? stream with
  | none => return ()
  | some index =>
    match m.descriptions[index]? with
    | some .input => set { m with input := m.input.drop count }
    | some (.pipe i) =>
      let p ← pipe i
      setPipe i { p with position := p.position + count }
    | some (.file place offset appends) =>
      setDescription index (.file place (offset + count) appends)
    | _ => return ()

/-! ## Messages -/

def complain (text : Bytes) : Run Unit := do
  let m ← get
  let caller := match m.caller with
    | some c => c ++ [':', ' ']
    | none => []
  let _ ← write 2 (m.name ++ [':', ' '] ++ Bytes.ofNat m.line ++ [':', ' '] ++ caller ++ text ++
    ['\n'])

/-- Give up with a message. -/
def failWith {α : Type} (text : Bytes) : Run α := do
  complain text
  throw (.failed 2)

/-! ## Parameters -/

def findVariable (m : Machine) (name : Bytes) : Option Variable :=
  (m.bindings.find? fun v => v.1 == name).map (·.2)

def positional (m : Machine) (n : Nat) : Option Bytes :=
  if n = 0 then some m.name else m.arguments[n - 1]?

/-- The value of a parameter that is one text. -/
def scalar (m : Machine) (name : Bytes) : Option Bytes :=
  match name with
  | ['?'] => some (Bytes.ofNat m.status)
  | ['$'] => some (Bytes.ofNat m.number)
  | ['#'] => some (Bytes.ofNat m.arguments.length)
  | ['!'] => m.jobs.head?.map Bytes.ofNat
  | ['-'] => some (m.options.filter (· != 'L'))
  | name =>
    if name.all isDigit then positional m (name.foldl (fun n c => 10 * n + (c.toNat - 48)) 0)
    else (findVariable m name).bind (·.value)

def value? (name : Bytes) : Run (Option Bytes) := return scalar (← get) name

def putVariable (name : Bytes) (v : Variable) : Run Unit :=
  modify fun m =>
    if (findVariable m name).isSome then
      { m with bindings := m.bindings.map fun w => if w.1 == name then (name, v) else w }
    else { m with bindings := m.bindings ++ [(name, v)] }

/-- Give a variable a value.  Constants keep theirs. -/
def assign (name value : Bytes) : Run Unit := do
  let m ← get
  match findVariable m name with
  | some v =>
    if v.constant then failWith (name ++ ": is read only".toList)
    else putVariable name { v with value := some value, exported := v.exported || m.option 'a' }
  | none => putVariable name ⟨some value, m.option 'a', false⟩

/-- The characters that split fields. -/
def separators (m : Machine) : Bytes :=
  match findVariable m "IFS".toList with
  | some v => v.value.getD [' ', '\t', '\n']
  | none => [' ', '\t', '\n']

/-- Variables are kept in so many rows. -/
def rows : Nat := 39

/-- The row of a name. -/
def rowOf (name : Bytes) : Nat :=
  (name.foldl (fun n c => n + c.toNat) (16 * (name.head?.getD '\x00').toNat)) % rows

/-- The variables that programs are given, row by row. -/
def environment (m : Machine) : List (Bytes × Bytes) :=
  let given := m.bindings.filterMap fun v =>
    if v.2.exported then v.2.value.map fun value => (v.1, value) else none
  given.mergeSort fun a b => rowOf a.1 ≤ rowOf b.1

/-! ## Processes -/

/-- How a process ends that has stopped.  Statuses are bytes. -/
def endingOf : Stop → Ending
  | .exit status | .failed status | .returned status => .finished (status % 256)
  | .broke _ | .continued _ => .finished 0
  | .brokenPipe => .finished 141
  | .waiting => .waiting
  | .killed signal => .killed signal
  | .exhausted => .exhausted

/-- Go on behind a process that has been waited for, with its status. -/
def statusOf : Ending → Run Nat
  | .finished status => return status
  | .waiting => throw .waiting
  | .killed signal => throw (.killed signal)
  | .exhausted => throw .exhausted

/-- Run something, however it stops. -/
def attempt {α : Type} (body : Run α) : Run (Except Stop α) := do
  try return .ok (← body)
  catch stop => return .error stop

/-- Put something back in order behind a run, however it stops. -/
def keeping {α : Type} (putBack : Machine → Machine) (body : Run α) : Run α := do
  match ← attempt body with
  | .ok a =>
    modify putBack
    return a
  | .error stop =>
    modify putBack
    throw stop

/-- Let messages be written in the name of a builtin. -/
def onBehalf {α : Type} (caller : Bytes) (body : Run α) : Run α := do
  let before := (← get).caller
  modify fun m => { m with caller := some caller }
  keeping (fun m => { m with caller := before }) body

/-- Do something and put back what a process has of its own, however it stops. -/
def apart {α : Type} (body : Run α) : Run (Except Stop α) := do
  let saved := (← get).toContext
  let r ← attempt body
  modify fun m => { m with toContext := saved }
  return r

end Run
end Shell
end CheckScript
