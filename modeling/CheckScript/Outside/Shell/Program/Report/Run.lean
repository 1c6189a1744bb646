/-
Running report scripts.
-/
import CheckScript.Outside.Shell.Program.FileWork
import CheckScript.Outside.Shell.Program.Report.Cell
import CheckScript.Outside.Shell.Program.Report.Read

namespace CheckScript
namespace Shell
namespace Report

/-! ## What a script works with -/

/-- A variable has a value, and an array that its name can stand for too. -/
structure Slot where
  value : Cell
  array : Nat

/-- A text that records are read from; more may come behind it. -/
structure Source where
  text : Bytes
  isWhole : Bool

/-- `openRanges` holds the rules between whose two conditions the script is. -/
structure State where
  script : Script
  globals : List (Bytes × Slot)
  locals : List (Bytes × Slot)
  arrays : List (Nat × Entries)
  fresh : Nat
  record : Bytes
  fields : List Cell
  openRanges : List Nat
  operand : Nat
  named : Bool
  source : Option Source
  readers : List (Bytes × Bytes)
  outputs : List Bytes
  seed : Nat
  status : Nat

/-- Why the rest of a statement is not carried out. -/
inductive Flow where
  | next
  | nextSource
  | leave
  | goOn
  | answered (value : Cell)
  | exited
  | failed (text : Bytes)

abbrev Work := ExceptT Flow (StateT State Job)

/-- What runs the parts of statements and expressions. -/
structure Rules where
  eval : Expr → Work Cell
  exec : Stmt → Work Unit

/-- Loops are given up after so many rounds. -/
def maxRounds : Nat := 10000000

/-! ## Variables -/

def slotIn (slots : List (Bytes × Slot)) (n : Bytes) : Option Slot :=
  (slots.find? fun s => s.1 == n).map (·.2)

def putSlot (slots : List (Bytes × Slot)) (n : Bytes) (slot : Slot) : List (Bytes × Slot) :=
  if slots.any fun s => s.1 == n then slots.map fun s => if s.1 == n then (n, slot) else s
  else (n, slot) :: slots

def newArray : Work Nat := do
  let s ← get
  set { s with fresh := s.fresh + 1 }
  return s.fresh

/-- The slot of a name, which is made where there is none yet. -/
def slotOf (n : Bytes) : Work Slot := do
  let s ← get
  match slotIn s.locals n with
  | some slot => return slot
  | none =>
    match slotIn s.globals n with
    | some slot => return slot
    | none =>
      let slot := ⟨.unset, ← newArray⟩
      modify fun s => { s with globals := (n, slot) :: s.globals }
      return slot

def entriesOf (array : Nat) : Work Entries := do
  return (((← get).arrays.find? fun a => a.1 == array).map (·.2)).getD []

def putEntries (array : Nat) (es : Entries) : Work Unit :=
  modify fun s => { s with arrays := (array, es) :: s.arrays.filter fun a => a.1 != array }

def global (n : String) : Work Cell := do
  return ((slotIn (← get).globals n.toList).map (·.value)).getD .unset

def setGlobal (n : String) (value : Cell) : Work Unit := do
  let slot ← slotOf n.toList
  modify fun s => { s with globals := putSlot s.globals n.toList { slot with value } }

def numberFormat : Work Bytes := do return (← global "CONVFMT").toText []

def textOf (c : Cell) : Work Bytes := do return c.toText (← numberFormat)

def globalText (n : String) : Work Bytes := do textOf (← global n)

def fail {α : Type} (text : Bytes) : Work α := throw (.failed text)

/-- Stop with a message that tells what is being read. -/
def stop {α : Type} (text : Bytes) : Work α := do
  let shown (n : String) : Work Bytes := do globalText n
  fail ("run time error: ".toList ++ text ++ "\n\tFILENAME=\"".toList ++ (← shown "FILENAME") ++
    "\" FNR=".toList ++ (← shown "FNR") ++ " NR=".toList ++ (← shown "NR"))

def regexFrom (b : Bytes) : Work Regex := do
  match readRegex b with
  | .ok r => return r
  | .error text => fail ("line 1: ".toList ++ text)

/-! ## Fields -/

def cutFields (b : Bytes) : Work (List Cell) := do
  match Separator.ofText (← globalText "FS") with
  | .error text => fail ("line 1: ".toList ++ text)
  | .ok separator => return (separator.cut b).map .input

def setRecord (b : Bytes) : Work Unit := do
  let fields ← cutFields b
  modify fun s => { s with record := b, fields }

/-- Make the record of its fields. -/
def joinFields : Work Unit := do
  let between ← globalText "OFS"
  let format ← numberFormat
  modify fun s => { s with record := Bytes.join between (s.fields.map (·.toText format)) }

def setCount (n : Nat) : Work Unit := do
  modify fun s => { s with
    fields := s.fields.take n ++ List.replicate (n - s.fields.length) .unset }
  joinFields

def setField (n : Nat) (value : Cell) : Work Unit := do
  if n = 0 then setRecord (← textOf value)
  else
    let s ← get
    let fields := s.fields ++ List.replicate (n - s.fields.length) .unset
    set { s with fields := fields.set (n - 1) value }
    joinFields

def field (n : Nat) : Work Cell := do
  let s ← get
  if n = 0 then return .input s.record else return (s.fields[n - 1]?).getD .unset

/-! ## Places -/

/-- A place whose keys and index are known. -/
inductive Spot where
  | variable (name : Bytes)
  | element (array : Nat) (key : Bytes)
  | field (n : Nat)

def isCount (n : Bytes) : Bool := n == "NF".toList

def valueOf (n : Bytes) : Work Cell := do
  if isCount n then return .number (Float.ofNat (← get).fields.length)
  else return (← slotOf n).value

def setValue (n : Bytes) (value : Cell) : Work Unit := do
  if isCount n then setCount (Cell.truncated value.toNumber).toNat
  else
    let slot := { ← slotOf n with value }
    modify fun s =>
      if s.locals.any fun l => l.1 == n then { s with locals := putSlot s.locals n slot }
      else { s with globals := putSlot s.globals n slot }

def evalEach (r : Rules) : List Expr → Work (List Cell)
  | [] => return []
  | e :: es => do
    let c ← r.eval e
    return c :: (← evalEach r es)

/-- Several keys are joined to one. -/
def keyOf (r : Rules) (keys : List Expr) : Work Bytes := do
  let format ← numberFormat
  let cells ← evalEach r keys
  return Bytes.join (← globalText "SUBSEP") (cells.map (·.toText format))

def spotOf (r : Rules) : Place → Work Spot
  | .variable n => return .variable n
  | .element a keys => do
    let key ← keyOf r keys
    return .element (← slotOf a).array key
  | .field index => do
    let n := Cell.truncated (← r.eval index).toNumber
    if n < 0 then stop (s!"negative field index ${n}".toList) else return .field n.toNat

/-- The value at a place.  An element is there once it has been asked for. -/
def fetch : Spot → Work Cell
  | .variable n => valueOf n
  | .field n => field n
  | .element a key => do
    let es ← entriesOf a
    match es.get? key with
    | some c => return c
    | none =>
      putEntries a (es.put key .unset)
      return .unset

def store (spot : Spot) (value : Cell) : Work Unit := do
  match spot with
  | .variable n => setValue n value
  | .field n => setField n value
  | .element a key => putEntries a ((← entriesOf a).put key value)

/-! ## Records -/

def addTo (n : String) : Work Unit := do
  setGlobal n (.number ((← global n).toNumber + 1))

/-- Carry out an assignment that stands among the operands. -/
def assignOperand (word : Bytes) : Work Unit := do
  let name := word.takeWhile (· != '=')
  let value := word.drop (name.length + 1)
  setValue name (.input (unescape value.length value))

def isAssignment (word : Bytes) : Bool :=
  let name := word.takeWhile (· != '=')
  isName name && name.length < word.length

def openInput : Work Bool := do
  match ← (Job.readNow : Job _) with
  | .error _ => return false
  | .ok text =>
    let isOpen := (← (get : Job Desk)).inputOpen
    modify fun s => { s with source := some ⟨text, !isOpen⟩, named := true }
    return true

/-- Go on to the next source that the operands name, or to the input if they name
none. -/
def openSource : Nat → Work Bool
  | 0 => return false
  | fuel + 1 => do
    let s ← get
    let count := Cell.truncated (← global "ARGC").toNumber
    if count ≤ s.operand then
      if s.named then return false else openInput
    else
      set { s with operand := s.operand + 1 }
      let operands ← entriesOf (← slotOf "ARGV".toList).array
      let word ← textOf ((operands.get? (Bytes.ofNat s.operand)).getD .unset)
      if word.isEmpty then openSource fuel
      else if isAssignment word then
        assignOperand word
        openSource fuel
      else
        setGlobal "FILENAME" (.text word)
        setGlobal "FNR" (.number 0)
        if word = ['-'] then openInput
        else
          match ← (Job.readFile word : Job _) with
          | .ok text =>
            modify fun s => { s with source := some ⟨text, true⟩, named := true }
            return true
          | .error reason =>
            fail ("cannot open \"".toList ++ word ++ "\" (".toList ++ reason.toList ++ [')'])

def reach (separator : Bytes) (source : Source) : Work Reach := do
  match nextRecord separator source.text source.isWhole with
  | .ok r => return r
  | .error text => fail ("line 1: ".toList ++ text)

/-- The next record of the sources, if there is one. -/
def nextInput : Nat → Work (Option Bytes)
  | 0 => return none
  | fuel + 1 => do
    match (← get).source with
    | none =>
      let argc := (Cell.truncated (← global "ARGC").toNumber).toNat
      if ← openSource (argc + 2) then nextInput fuel else return none
    | some source =>
      match ← reach (← globalText "RS") source with
      | .starved => (throw .waiting : Job _)
      | .ended =>
        modify fun s => { s with source := none }
        nextInput fuel
      | .record b rest =>
        modify fun s => { s with source := some { source with text := rest } }
        addTo "NR"
        addTo "FNR"
        return some b

def inputRecord : Work (Option Bytes) := do
  nextInput (2 * (Cell.truncated (← global "ARGC").toNumber).toNat + 4)

/-- The next record of a file that the script reads by itself. -/
def readerRecord (file : Bytes) : Work (Except Unit (Option Bytes)) := do
  let text? ← match (← get).readers.find? fun r => r.1 == file with
    | some r => pure (some r.2)
    | none =>
      match ← (Job.readOperand file : Job _) with
      | .ok text => pure (some text)
      | .error _ => pure none
  match text? with
  | none => return .error ()
  | some text =>
    let keep (rest : Bytes) : Work Unit := modify fun s => { s with
      readers := (file, rest) :: s.readers.filter fun r => r.1 != file }
    match ← reach (← globalText "RS") ⟨text, true⟩ with
    | .record b rest =>
      keep rest
      return .ok (some b)
    | _ =>
      keep []
      return .ok none

/-- Give a record to a place, or make it the record that is worked on. -/
def deliver (r : Rules) (target : Option Place) (b : Bytes) : Work Cell := do
  match target with
  | none => setRecord b
  | some p => store (← spotOf r p) (.input b)
  return .number 1

def nextLine (r : Rules) (target : Option Place) (file : Option Expr) : Work Cell := do
  match file with
  | none =>
    match ← inputRecord with
    | none => return .number 0
    | some b => deliver r target b
  | some e =>
    match ← readerRecord (← textOf (← r.eval e)) with
    | .error _ => return .number (-1)
    | .ok none => return .number 0
    | .ok (some b) => deliver r target b

/-! ## Output -/

def writeFile (file b : Bytes) (append : Bool) : Work Unit := do
  let isOpen := (← get).outputs.contains file
  let before ← if isOpen || append then
      match ← (Job.readFile file : Job _) with
      | .ok b => pure b
      | .error _ => pure []
    else pure []
  match ← (Job.writeFile file (before ++ b) : Job _) with
  | .ok _ =>
    if !isOpen then modify fun s => { s with outputs := file :: s.outputs }
  | .error reason =>
    fail ("cannot open \"".toList ++ file ++ "\" for output (".toList ++ reason.toList ++ [')'])

def runsCommands {α : Type} : Work α := stop "commands cannot be run".toList

def write (r : Rules) (outlet : Outlet) (b : Bytes) : Work Unit := do
  match outlet with
  | .standard => (Job.print b : Job _)
  | .command _ => runsCommands
  | .file name append =>
    let file ← textOf (← r.eval name)
    if file = ['-'] ∨ String.ofList file = "/dev/stdout" then (Job.print b : Job _)
    else if String.ofList file = "/dev/stderr" then
      (modify fun d => { d with written := (2, b) :: d.written } : Job _)
    else writeFile file b append

def printValues (r : Rules) (values : List Expr) (outlet : Outlet) : Work Unit := do
  let format ← globalText "OFMT"
  let cells ← if values.isEmpty then do pure [← field 0] else evalEach r values
  let between ← globalText "OFS"
  let ending ← globalText "ORS"
  write r outlet (Bytes.join between (cells.map (·.toText format)) ++ ending)

/-- A format with values filled in.  What was possible reaches `partly` before the
script stops at what was not. -/
def fill (what : String) (partly : Bytes → Work Unit) (values : List Cell) : Work Bytes := do
  let convfmt ← numberFormat
  match values with
  | [] => return []
  | format :: values =>
    let format ← textOf format
    let shown := what.toList ++ "(\"".toList ++ format ++ "\")".toList
    match filled convfmt (format.length + 1) format values with
    | (b, none) => return b
    | (b, some reason) =>
      partly b
      match reason with
      | .tooFew => stop ("not enough arguments passed to ".toList ++ shown)
      | .improper => stop ("improper conversion in ".toList ++ shown)

/-! ## Functions -/

/-- The expression that an argument stands for. -/
def regexOf (r : Rules) : Expr → Work Regex
  | .regex x => return x
  | e => do regexFrom (← textOf (← r.eval e))

def subject (b : Bytes) : Regex.Subject := ⟨List.toArray b, false⟩

def replace (r : Rules) (all : Bool) (pattern new : Expr) (target : Expr) : Work Cell := do
  let regex ← regexOf r pattern
  let new ← textOf (← r.eval new)
  match target with
  | .place p =>
    let spot ← spotOf r p
    let text ← textOf (← fetch spot)
    let (b, count) := replaced regex (subject text) new all (text.length + 2) 0 none
    if 0 < count then store spot (.text b)
    return .number (Float.ofNat count)
  | _ => return .number 0

def arrayNamed : Expr → Work Nat
  | .place (.variable n) => do return (← slotOf n).array
  | _ => newArray

def split (r : Rules) (text array : Expr) (separator : Option Expr) : Work Cell := do
  let b ← textOf (← r.eval text)
  let pieces ← match separator with
    | none => do
      match Separator.ofText (← globalText "FS") with
      | .ok s => pure (s.cut b)
      | .error text => fail ("line 1: ".toList ++ text)
    | some (.regex x) => pure ((Separator.regex x).cut b)
    | some e => do
      match Separator.ofText (← textOf (← r.eval e)) with
      | .ok s => pure (s.cut b)
      | .error text => fail ("line 1: ".toList ++ text)
  let keys := (List.range pieces.length).map fun i => Bytes.ofNat (i + 1)
  putEntries (← arrayNamed array) (keys.zip (pieces.map .input)).reverse
  return .number (Float.ofNat pieces.length)

/-- The part of a text from a place on, which may lie before its first character. -/
def substring (b : Bytes) (start : Float) (size : Option Float) : Bytes :=
  let first := Cell.truncated start.round
  let skipped := (first - 1).toNat
  match size with
  | none => b.drop skipped
  | some size =>
    let last := first + Cell.truncated size.round - 1
    (b.take last.toNat).drop skipped

/-- Where a text begins in another one, counted from one, or zero. -/
def indexOf (sought : Bytes) (place : Nat) : Bytes → Nat
  | [] => if sought.isEmpty then place else 0
  | c :: cs => if sought.isPrefixOf (c :: cs) then place else indexOf sought (place + 1) cs

def locate (r : Rules) (text pattern : Expr) : Work Cell := do
  let b ← textOf (← r.eval text)
  let regex ← regexOf r pattern
  let (start, size) : Float × Float := match Regex.search (subject b) regex 0 with
    | some m => (Float.ofNat (m.start + 1), Float.ofNat (m.stop - m.start))
    | none => (0, -1)
  setGlobal "RSTART" (.number start)
  setGlobal "RLENGTH" (.number size)
  return .number start

def close (file : Bytes) : Work Cell := do
  let s ← get
  let isKnown := s.outputs.contains file || s.readers.any fun r => r.1 == file
  set { s with
    outputs := s.outputs.filter (· != file)
    readers := s.readers.filter fun r => r.1 != file }
  return .number (if isKnown then 0 else -1)

/-- The next of the numbers that take the place of random ones. -/
def random : Work Cell := do
  let s ← get
  let seed := (s.seed * 1103515245 + 12345) % Nat.pow 2 31
  set { s with seed }
  return .number (Float.ofNat seed / Float.ofNat (Nat.pow 2 31))

def setSeed (seed : Nat) : Work Cell := do
  let s ← get
  set { s with seed }
  return .number (Float.ofNat s.seed)

def lengthOf (r : Rules) (e : Expr) : Work Cell := do
  match e with
  | .place (.variable n) =>
    let es ← entriesOf (← slotOf n).array
    if es.isEmpty then return .number (Float.ofNat (← textOf (← valueOf n)).length)
    else return .number (Float.ofNat es.length)
  | e => return .number (Float.ofNat (← textOf (← r.eval e)).length)

/-- The value of a function of numbers. -/
def numeric (f : Function) (x y : Float) : Float :=
  match f with
  | .sine => x.sin
  | .cosine => x.cos
  | .arcTangent => x.atan2 y
  | .exponential => x.exp
  | .logarithm => x.log
  | .squareRoot => x.sqrt
  | _ => if x < 0 then x.ceil else x.floor

def apply (r : Rules) (f : Function) (args : List Expr) : Work Cell := do
  let value (e : Expr) : Work Cell := r.eval e
  let text (e : Expr) : Work Bytes := do textOf (← value e)
  match f, args with
  | .length, [] => return .number (Float.ofNat (← get).record.length)
  | .length, e :: _ => lengthOf r e
  | .substring, s :: start :: rest =>
    let b ← text s
    let start := (← value start).toNumber
    let size ← match rest with
      | [] => pure none
      | n :: _ => do pure (some (← value n).toNumber)
    return .text (substring b start size)
  | .index, s :: t :: _ =>
    let b ← text s
    return .number (Float.ofNat (indexOf (← text t) 1 b))
  | .split, s :: a :: rest => split r s a rest.head?
  | .replaceFirst, p :: new :: rest =>
    replace r false p new (rest.headD (.place (.field (.number 0))))
  | .replaceAll, p :: new :: rest =>
    replace r true p new (rest.headD (.place (.field (.number 0))))
  | .locate, s :: p :: _ => locate r s p
  | .format, args => do return .text (← fill "sprintf" (fun _ => return ()) (← evalEach r args))
  | .random, _ => random
  | .seed, [] => setSeed 1
  | .seed, e :: _ => do setSeed (Cell.truncated (← value e).toNumber).toNat
  | .lowerCase, e :: _ => do return .text ((← text e).map Regex.Subject.lower)
  | .upperCase, e :: _ => do return .text ((← text e).map Regex.Subject.upper)
  | .command, _ => runsCommands
  | .close, e :: _ => do close (← text e)
  | .flush, _ =>
    (Job.flush : Job _)
    return .number 0
  | .arcTangent, y :: x :: _ => do
    let y := (← value y).toNumber
    return .number (numeric f y (← value x).toNumber)
  | f, x :: _ => do return .number (numeric f (← value x).toNumber 0)
  | _, [] => return .unset

/-! ## Calls -/

/-- The slot of a parameter.  A variable that is handed over shares its array. -/
def slotFor (r : Rules) : Option Expr → Work Slot
  | none => do return ⟨.unset, ← newArray⟩
  | some (.place (.variable n)) => do
    let value ← valueOf n
    return { ← slotOf n with value }
  | some e => do
    let value ← r.eval e
    return ⟨value, ← newArray⟩

def bindAll (r : Rules) : List Bytes → List Expr → Work (List (Bytes × Slot))
  | [], _ => return []
  | n :: ns, args => do
    let slot ← slotFor r args.head?
    return (n, slot) :: (← bindAll r ns (args.drop 1))

def call (r : Rules) (n : Bytes) (args : List Expr) : Work Cell := do
  match (← get).script.definitions.find? fun d => d.name == n with
  | none => return .unset
  | some d =>
    let locals ← bindAll r d.parameters args
    let before := (← get).locals
    modify fun s => { s with locals }
    let body : Work Cell := do
      r.exec d.body
      return .unset
    let answer ← tryCatch body fun
      | .answered value => return value
      | flow => throw flow
    modify fun s => { s with locals := before }
    return answer

/-! ## Expressions and statements -/

def isTrue (r : Rules) (e : Expr) : Work Bool := do return (← r.eval e).holds

def truth (b : Bool) : Cell := .number (if b then 1 else 0)

def eval (r : Rules) (e : Expr) : Work Cell := do
  match e with
  | .number x => return .number x
  | .text b => return .text b
  | .regex x => return truth (Regex.search (subject (← get).record) x 0).isSome
  | .place p => do fetch (← spotOf r p)
  | .list es => do return .text (← keyOf r es)
  | .group e => r.eval e
  | .assign p none value =>
    let spot ← spotOf r p
    let c ← r.eval value
    store spot c
    return c
  | .assign p (some operator) value =>
    let spot ← spotOf r p
    let y := (← r.eval value).toNumber
    let c := Cell.number (operator.apply (← fetch spot).toNumber y)
    store spot c
    return c
  | .step p up first =>
    let spot ← spotOf r p
    let before := (← fetch spot).toNumber
    let behind := if up then before + 1 else before - 1
    store spot (.number behind)
    return .number (if first then behind else before)
  | .negative e => return .number (-(← r.eval e).toNumber)
  | .positive e => return .number (← r.eval e).toNumber
  | .negation e => return truth (!(← isTrue r e))
  | .arith operator a b =>
    let x := (← r.eval a).toNumber
    return .number (operator.apply x (← r.eval b).toNumber)
  | .concat a b =>
    let s ← textOf (← r.eval a)
    return .text (s ++ (← textOf (← r.eval b)))
  | .compare wanted a b =>
    let x ← r.eval a
    let y ← r.eval b
    return truth (wanted.holds (Cell.compare (← numberFormat) x y))
  | .fits wanted a pattern =>
    let b ← textOf (← r.eval a)
    let regex ← regexOf r pattern
    return truth ((Regex.search (subject b) regex 0).isSome == wanted)
  | .member keys array =>
    let key ← keyOf r keys
    return truth ((← entriesOf (← slotOf array).array).get? key).isSome
  | .conjunction a b => if ← isTrue r a then return truth (← isTrue r b) else return truth false
  | .disjunction a b => if ← isTrue r a then return truth true else return truth (← isTrue r b)
  | .conditional c yes no => if ← isTrue r c then r.eval yes else r.eval no
  | .call n args => call r n args
  | .apply f args => apply r f args
  | .nextLine target file => nextLine r target file
  | .commandLine .. => runsCommands

/-- Run the body of a loop, and tell whether the loop goes on. -/
def round (r : Rules) (body : Stmt) : Work Bool := do
  let work : Work Bool := do
    r.exec body
    return true
  tryCatch work fun
    | .leave => return false
    | .goOn => return true
    | flow => throw flow

def loop (r : Rules) (condition : Expr) (step body : Stmt) : Nat → Work Unit
  | 0 => return ()
  | fuel + 1 => do
    if ← isTrue r condition then
      if ← round r body then
        r.exec step
        loop r condition step body fuel

def loopBehind (r : Rules) (body : Stmt) (condition : Expr) : Nat → Work Unit
  | 0 => return ()
  | fuel + 1 => do
    if ← round r body then
      if ← isTrue r condition then loopBehind r body condition fuel

def loopEach (r : Rules) (name : Bytes) (body : Stmt) : List Bytes → Work Unit
  | [] => return ()
  | k :: ks => do
    setValue name (.input k)
    if ← round r body then loopEach r name body ks

def exec (r : Rules) (s : Stmt) : Work Unit := do
  match s with
  | .nothing => return ()
  | .expr e =>
    let _ ← r.eval e
  | .print values outlet => printValues r values outlet
  | .printFormat values outlet => do
    write r outlet (← fill "printf" (write r outlet) (← evalEach r values))
  | .block a b =>
    r.exec a
    r.exec b
  | .branch c yes no => if ← isTrue r c then r.exec yes else r.exec no
  | .loop c step body => loop r c step body maxRounds
  | .loopBehind body c => loopBehind r body c maxRounds
  | .each name array body =>
    loopEach r name body (← entriesOf (← slotOf array).array).keys
  | .leave => throw .leave
  | .goOn => throw .goOn
  | .next => throw .next
  | .nextSource => throw .nextSource
  | .exit status =>
    match status with
    | none => pure ()
    | some e =>
      let n := Cell.truncated (← r.eval e).toNumber
      modify fun s => { s with status := (n % 256).toNat }
    throw .exited
  | .answer value =>
    let c ← match value with
      | none => pure .unset
      | some e => r.eval e
    throw (.answered c)
  | .delete array none => do putEntries (← slotOf array).array []
  | .delete array (some keys) =>
    let key ← keyOf r keys
    let a := (← slotOf array).array
    putEntries a ((← entriesOf a).remove key)

/-- What runs scripts whose parts and calls are nested no deeper than the fuel. -/
def rules : Nat → Rules
  | 0 => { eval := fun _ => fail "function call nesting too deep".toList
           exec := fun _ => fail "function call nesting too deep".toList }
  | fuel + 1 =>
    { eval := fun e => ExceptT.mk fun s => (eval (rules fuel) e).run s
      exec := fun t => ExceptT.mk fun s => (exec (rules fuel) t).run s }

def maxNesting : Nat := 100000

/-! ## Scripts -/

/-- Whether a rule acts on the record. -/
def acts (r : Rules) (index : Nat) : Trigger → Work Bool
  | .start | .stop => return false
  | .always => return true
  | .when c => isTrue r c
  | .range first last => do
    let inside := (← get).openRanges.contains index
    let starts ← if inside then pure true else isTrue r first
    if starts then
      let isLast ← isTrue r last
      modify fun s => { s with
        openRanges := if isLast then s.openRanges.filter (· != index)
          else index :: s.openRanges.filter (· != index) }
      return true
    else return false

def actAll (r : Rules) (index : Nat) : List Rule → Work Unit
  | [] => return ()
  | rule :: rest => do
    if ← acts r index rule.trigger then r.exec rule.action
    actAll r (index + 1) rest

def readAll (r : Rules) (all : List Rule) : Nat → Work Unit
  | 0 => return ()
  | fuel + 1 => do
    match ← inputRecord with
    | none => return ()
    | some b =>
      setRecord b
      tryCatch (actAll r 0 all) fun
        | .next => return ()
        | .nextSource => modify fun s => { s with source := none }
        | flow => throw flow
      readAll r all fuel

def isStart (r : Rule) : Bool :=
  match r.trigger with
  | .start => true
  | _ => false

def isStop (r : Rule) : Bool :=
  match r.trigger with
  | .stop => true
  | _ => false

def perform (r : Rules) (chosen : List Rule) : Work Unit := do
  for rule in chosen do r.exec rule.action

/-- Run a script: what it does at the start, then record by record, then at the end. -/
def run (r : Rules) : Work Unit := do
  let all := (← get).script.rules
  let first : Work Unit := do
    perform r (all.filter isStart)
    if all.any fun rule => !isStart rule then readAll r all maxRounds
  tryCatch first fun
    | .exited => return ()
    | flow => throw flow
  perform r (all.filter isStop)

def defaults : List (String × Cell) :=
  [("FS", .text [' ']), ("OFS", .text [' ']), ("RS", .text ['\n']), ("ORS", .text ['\n']),
    ("CONVFMT", .text "%.6g".toList), ("OFMT", .text "%.6g".toList),
    ("SUBSEP", .text ['\x1c']), ("NR", .number 0), ("FNR", .number 0), ("RSTART", .number 0),
    ("RLENGTH", .number (-1)), ("FILENAME", .text [])]

/-- What a script begins with: the words of its command line are array zero, the
environment is array one. -/
def State.start (script : Script) (words : List Bytes) (environment : List (Bytes × Bytes)) :
    State :=
  let entries := (List.range words.length).zip words |>.map fun w =>
    (Bytes.ofNat w.1, Cell.input w.2)
  let known := (defaults.zip (List.range defaults.length)).map fun d =>
    (d.1.1.toList, (⟨d.1.2, d.2 + 3⟩ : Slot))
  { script
    globals := ("ARGV".toList, ⟨.unset, 0⟩) :: ("ENVIRON".toList, ⟨.unset, 1⟩) ::
      ("ARGC".toList, ⟨.number (Float.ofNat words.length), 2⟩) :: known
    locals := []
    arrays := [(0, entries.reverse), (1, environment.map fun v => (v.1, Cell.input v.2))]
    fresh := defaults.length + 3
    record := [], fields := [], openRanges := [], operand := 1, named := false, source := none
    readers := [], outputs := [], seed := 1, status := 0 }

end Report

namespace Job

/-! ## awk -/

/-- The options of a report. -/
structure ReportOptions where
  separator : Option Bytes
  assignments : List Bytes
  files : List Bytes
  operands : List Bytes

def reportOptions (o : ReportOptions) : Nat → List Bytes → Job ReportOptions
  | 0, words => return { o with operands := words }
  | _, [] => return o
  | fuel + 1, w :: ws => do
    match w with
    | ['-', '-'] => return { o with operands := ws }
    | ['-'] => return { o with operands := w :: ws }
    | '-' :: letter :: value =>
      let put (value : Bytes) : ReportOptions := match letter with
        | 'F' => { o with separator := some value }
        | 'v' => { o with assignments := o.assignments ++ [value] }
        | 'f' => { o with files := o.files ++ [value] }
        | _ => o
      if "FvfW".toList.contains letter then
        match value, ws with
        | [], [] => giveUp 2 ("option -".toList ++ letter :: " lacks argument".toList)
        | [], v :: ws => reportOptions (put v) fuel ws
        | value, ws => reportOptions (put value) fuel ws
      else giveUp 2 ("not an option: ".toList ++ w)
    | w => return { o with operands := w :: ws }

/-- The text of the script, and the operands that are left. -/
def reportText (o : ReportOptions) : Job (Bytes × List Bytes) := do
  match o.files, o.operands with
  | [], [] =>
    complain "Usage: mawk [Options] [Program] [file ...]".toList
    quit 0
  | [], text :: rest => return (text, rest)
  | files, rest =>
    let parts ← files.mapM fun f => do
      match ← readOperand f with
      | .ok b => pure b
      | .error reason =>
        giveUp 2 ("cannot open \"".toList ++ f ++ "\" (".toList ++ reason.toList ++ [')'])
    return (Bytes.join ['\n'] parts, rest)

def awk : Job Unit := do
  let d ← get
  let o ← reportOptions ⟨none, [], [], []⟩ (d.arguments.length + 1) d.arguments
  match o.assignments.find? fun a => !Report.isAssignment a with
  | some a => giveUp 2 ("improper assignment: -v ".toList ++ a)
  | none => pure ()
  let (text, operands) ← reportText o
  match Report.read text with
  | .error fault => giveUp 2 fault.message
  | .ok script =>
    let work : Report.Work Unit := do
      match o.separator with
      | some b => Report.setGlobal "FS" (.text (Report.unescape b.length b))
      | none => pure ()
      for a in o.assignments do Report.assignOperand a
      Report.run (Report.rules Report.maxNesting)
    let (result, s) ← work.run.run (.start script (d.name :: operands) d.environment)
    match result with
    | .error (.failed text) => giveUp 2 text
    | _ => setStatus s.status

end Job
end Shell
end CheckScript
