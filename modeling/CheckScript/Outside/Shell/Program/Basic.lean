/-
Programs that command lines call: what they find, how they write, and how they
read their options.
-/
import CheckScript.Files.Tree
import CheckScript.Outside.Shell.Syntax

namespace CheckScript
namespace Shell

/-- What a program has in front of it.  `written` holds what has reached a stream,
the latest first, and `held` the output that is kept back until the program ends
or asks for it to be written. -/
structure Desk where
  name : Bytes
  arguments : List Bytes
  environment : List (Bytes × Bytes)
  files : Files
  runnable : List (List String)
  input : Except String Bytes
  inputOpen : Bool
  inputIsFile : Bool
  used : Nat
  written : List (Nat × Bytes)
  held : List Bytes
  status : Nat

/-- Why a program stops. -/
inductive Quit where
  | done
  | waiting
deriving DecidableEq, Repr

abbrev Job := ExceptT Quit (StateM Desk)

namespace Job

/-! ## Writing -/

def print (b : Bytes) : Job Unit := modify fun d => { d with held := b :: d.held }

def printLine (b : Bytes) : Job Unit := print (b ++ ['\n'])

/-- Let what has been printed reach the output. -/
def flush : Job Unit :=
  modify fun d => { d with
    written := (1, d.held.reverse.flatten) :: d.written
    held := [] }

def printNow (b : Bytes) : Job Unit := do
  print b
  flush

/-- A complaint is written at once. -/
def complain (text : Bytes) : Job Unit :=
  modify fun d => { d with written := (2, text ++ ['\n']) :: d.written }

def setStatus (status : Nat) : Job Unit := modify fun d => { d with status }

/-- Complain in the name of the program, and go on. -/
def warn (status : Nat) (text : Bytes) : Job Unit := do
  complain ((← get).name ++ ": ".toList ++ text)
  setStatus status

def quit {α : Type} (status : Nat) : Job α := do
  setStatus status
  throw .done

def giveUp {α : Type} (status : Nat) (text : Bytes) : Job α := do
  warn status text
  throw .done

/-- Give up with a hint at the help of the program. -/
def usage {α : Type} (status : Nat) (text : Bytes) : Job α := do
  warn status text
  complain ("Try '".toList ++ (← get).name ++ " --help' for more information.".toList)
  quit status

/-! ## Reading -/

/-- What can be read now.  It counts as read. -/
def readNow : Job (Except String Bytes) := do
  let d ← get
  match d.input with
  | .error reason => return .error reason
  | .ok b =>
    set { d with used := d.used + b.length, input := .ok [] }
    return .ok b

/-- Go on only if the input has ended. -/
def awaitEnd : Job Unit := do
  if (← get).inputOpen then throw .waiting

/-- The whole input. -/
def readAll : Job (Except String Bytes) := do
  match ← readNow with
  | .error reason => return .error reason
  | .ok b =>
    awaitEnd
    return .ok b

/-- Devices that are files without content. -/
def isEmptyDevice (name : Bytes) : Bool := String.ofList name == "/dev/null"

/-- As much as is read of the device that gives zeros without end. -/
def zeroCount : Nat := Nat.pow 2 20

def readFile (name : Bytes) : Job (Except String Bytes) := do
  if isEmptyDevice name then return .ok []
  else if String.ofList name == "/dev/zero" then return .ok (List.replicate zeroCount '\x00')
  else if String.ofList name == "/dev/stdin" then readAll
  else
    match (← get).files.read ⟨Bytes.text name⟩ with
    | .ok bytes => return .ok (Bytes.ofArray bytes)
    | .error fault => return .error fault.reason

/-- A file, or the input for a dash. -/
def readOperand (name : Bytes) : Job (Except String Bytes) := do
  if name = ['-'] then readAll else readFile name

def writeFile (name content : Bytes) : Job (Except String Unit) := do
  if isEmptyDevice name then return .ok ()
  else
    match (← get).files.write ⟨Bytes.text name⟩ (Bytes.toArray content) with
    | .ok files =>
      modify fun d => { d with files }
      return .ok ()
    | .error fault => return .error fault.reason

/-! ## Options -/

/-- Options that a program knows: letters, letters with a value, and long names for
letters. -/
structure Options where
  flags : String
  valued : String
  long : List (String × Char)

/-- Options in their order, with their values, and the operands. -/
structure Given where
  options : List (Char × Bytes)
  operands : List Bytes

namespace Given

def has (g : Given) (letter : Char) : Bool := g.options.any fun o => o.1 == letter

def value? (g : Given) (letter : Char) : Option Bytes :=
  (g.options.reverse.find? fun o => o.1 == letter).map (·.2)

def values (g : Given) (letter : Char) : List Bytes :=
  (g.options.filter fun o => o.1 == letter).map (·.2)

end Given

def knows (letters : String) (c : Char) : Bool := letters.toList.contains c

/-- The options in one word of letters.  A value is what follows its letter, or
the next word. -/
def letters (o : Options) : Bytes → List Bytes → Except Bytes (List (Char × Bytes) × List Bytes)
  | [], words => .ok ([], words)
  | c :: cs, words =>
    if knows o.valued c then
      match cs, words with
      | [], [] => .error ("option requires an argument -- '".toList ++ [c, '\''])
      | [], w :: ws => .ok ([(c, w)], ws)
      | cs, ws => .ok ([(c, cs)], ws)
    else if knows o.flags c then
      match letters o cs words with
      | .ok r => .ok ((c, []) :: r.1, r.2)
      | .error e => .error e
    else .error ("invalid option -- '".toList ++ [c, '\''])

/-- One long option, which may be cut short and may carry a value. -/
def longOption (o : Options) (word : Bytes) (words : List Bytes) :
    Except Bytes ((Char × Bytes) × List Bytes) :=
  let name := word.takeWhile (· != '=')
  let value := word.drop (name.length + 1)
  let exact := o.long.filter fun l => l.1.toList == name
  let found := if exact.isEmpty then o.long.filter fun l => name.isPrefixOf l.1.toList else exact
  match found with
  | [(full, c)] =>
    if knows o.valued c then
      if name.length < word.length then .ok ((c, value), words)
      else
        match words with
        | [] => .error (s!"option '--{full}' requires an argument".toList)
        | w :: ws => .ok ((c, w), ws)
    else if name.length < word.length then
      .error (s!"option '--{full}' doesn't allow an argument".toList)
    else .ok ((c, []), words)
  | [] => .error ("unrecognized option '--".toList ++ word ++ ['\''])
  | _ => .error ("option '--".toList ++ word ++ "' is ambiguous".toList)

/-- Options may stand anywhere before a double dash; with `inFront` they stand
before the operands only. -/
def read (o : Options) (inFront : Bool) (fuel : Nat) (g : Given) :
    List Bytes → Except Bytes Given
  | [] => .ok { options := g.options.reverse, operands := g.operands.reverse }
  | w :: ws =>
    match fuel with
    | 0 => .ok { options := g.options.reverse, operands := g.operands.reverse ++ w :: ws }
    | fuel + 1 =>
      match w with
      | ['-', '-'] =>
        .ok { options := g.options.reverse, operands := g.operands.reverse ++ ws }
      | '-' :: '-' :: name =>
        match longOption o name ws with
        | .error e => .error e
        | .ok (option, ws) => read o inFront fuel { g with options := option :: g.options } ws
      | '-' :: c :: cs =>
        match letters o (c :: cs) ws with
        | .error e => .error e
        | .ok (options, ws) =>
          read o inFront fuel { g with options := options.reverse ++ g.options } ws
      | w =>
        if inFront then
          .ok { options := g.options.reverse, operands := g.operands.reverse ++ w :: ws }
        else read o inFront fuel { g with operands := w :: g.operands } ws

/-- The options of the program.  It gives up on those that it does not know. -/
def given (status : Nat) (flags valued : String) (long : List (String × Char)) : Job Given := do
  let args := (← get).arguments
  match read ⟨flags, valued, long⟩ false args.length ⟨[], []⟩ args with
  | .ok g => return g
  | .error fault => usage status fault

/-- Options that stand before all operands. -/
def givenInFront (status : Nat) (flags valued : String) : Job Given := do
  let args := (← get).arguments
  match read ⟨flags, valued, []⟩ true args.length ⟨[], []⟩ args with
  | .ok g => return g
  | .error fault => usage status fault

end Job

/-- A program by its name. -/
structure Program where
  name : String
  job : Job Unit

namespace Program

/-- Let a program work.  What it holds back is written when it is done. -/
def work (job : Job Unit) (desk : Desk) : Bool × Desk :=
  let r := job.run.run desk
  match r.1 with
  | .error .waiting => (true, r.2)
  | _ => (false, (Job.flush.run.run r.2).2)

end Program

/-! ## Text in lines -/

/-- The pieces of a text with the characters that end them. -/
def endedBy (ending : Char) (b : Bytes) : List Bytes :=
  b.foldr (fun c (ls : List Bytes) =>
    if c = ending then [ending] :: ls
    else match ls with
      | [] => [[c]]
      | l :: ls => (c :: l) :: ls) []

/-- The pieces without the characters that end them. -/
def bareEndedBy (ending : Char) (b : Bytes) : List Bytes :=
  (endedBy ending b).map fun l => if l.getLast? = some ending then l.dropLast else l

/-- The lines of a text with the newlines that end them. -/
def fullLines (b : Bytes) : List Bytes := endedBy '\n' b

/-- The lines without their newlines. -/
def bareLines (b : Bytes) : List Bytes := bareEndedBy '\n' b

/-- A natural number in decimal digits. -/
def natural? (b : Bytes) : Option Nat :=
  if !b.isEmpty && b.all isDigit then some (b.foldl (fun n c => 10 * n + (c.toNat - 48)) 0)
  else none

/-- A number with blanks before it. -/
def padStart (width : Nat) (b : Bytes) : Bytes := List.replicate (width - b.length) ' ' ++ b

end Shell
end CheckScript
