/-
TOML documents.
-/
import CheckScript.Toml.Literal
import CheckScript.Toml.Moment

namespace CheckScript
namespace Toml

/-- A reader takes a value from the front of a text and gives what follows. -/
abbrev Reader (α : Type) := List Char → Option (α × List Char)

/-- Deepest nesting of values, and the most names in a key. -/
def maxNesting : Nat := 79

def isBareKeyChar (c : Char) : Bool :=
  Text.isAsciiLetter c || Text.isDigit c || c == '_' || c == '-'

/-- One name of a key.  A quoted name stands on one line. -/
def name (cs : List Char) : Option (String × List Char) :=
  match cs with
  | '"' :: rest => (basic rest).map fun r => (String.ofList r.1, r.2)
  | '\'' :: rest => (literal rest).map fun r => (String.ofList r.1, r.2)
  | cs =>
    let bare := cs.takeWhile isBareKeyChar
    if bare.isEmpty then none else some (String.ofList bare, cs.dropWhile isBareKeyChar)

/-- Names with dots between them, and blanks around all of them. -/
def keyFrom (room : Nat) (cs : List Char) : Option (Key × List Char) :=
  match room with
  | 0 => none
  | room + 1 =>
    match name (skipSpaces cs) with
    | none => none
    | some (first, rest) =>
      match skipSpaces rest with
      | '.' :: more => (keyFrom room more).map fun r => (first :: r.1, r.2)
      | rest => some ([first], rest)

def key (cs : List Char) : Option (Key × List Char) := keyFrom maxNesting cs

/-- What follows a comment, the line break not included.  A control character in
it is refused. -/
def skipComment : List Char → Option (List Char)
  | '#' :: cs =>
    match cs.dropWhile isPlain with
    | [] => some []
    | rest => if (afterNewline rest).isSome then some rest else none
  | cs => some cs

/-- What follows the end of a line. -/
def endLine (cs : List Char) : Option (List Char) :=
  match skipComment (skipSpaces cs) with
  | none => none
  | some [] => some []
  | some rest => afterNewline rest

/-- Skip blanks, comments and line breaks inside an array. -/
def skipGap (cs : List Char) : Option (List Char) :=
  match skipComment (skipSpaces cs) with
  | none => none
  | some rest =>
    match afterNewline rest with
    | none => some rest
    | some below => if _h : below.length < cs.length then skipGap below else none
termination_by cs.length

/-- The items of an array behind its opening bracket.  A comma may follow the
last. -/
def items (item : Reader Node) (cs : List Char) : Option (List Node × List Char) :=
  match skipGap cs with
  | none => none
  | some (']' :: rest) => some ([], rest)
  | some start =>
    match item start with
    | none => none
    | some (node, rest) =>
      match skipGap rest with
      | some (']' :: rest) => some ([node], rest)
      | some (',' :: rest) =>
        if _h : rest.length < cs.length then
          (items item rest).map fun r => (node :: r.1, r.2)
        else none
      | _ => none
termination_by cs.length

/-- A key, an equals sign and a value. -/
def assignment (value : Reader Node) (cs : List Char) : Option ((Key × Node) × List Char) :=
  match key cs with
  | some (key, '=' :: rest) => (value (skipSpaces rest)).map fun r => ((key, r.1), r.2)
  | _ => none

/-- Assignments behind the brace that opens a table on one line. -/
def assignments (value : Reader Node) (cs : List Char) :
    Option (List (Key × Node) × List Char) :=
  match assignment value cs with
  | none => none
  | some (first, rest) =>
    match skipSpaces rest with
    | '}' :: rest => some ([first], rest)
    | ',' :: rest =>
      if _h : rest.length < cs.length then
        (assignments value rest).map fun r => (first :: r.1, r.2)
      else none
    | _ => none
termination_by cs.length

def inlineTable (value : Reader Node) (cs : List Char) : Option (Node × List Char) :=
  match skipSpaces cs with
  | '}' :: rest => some (.table .inline [], rest)
  | start =>
    match assignments value start with
    | none => none
    | some (values, rest) =>
      (insertAll [] values).map fun entries => (.table .inline entries, rest)

def isScalarChar (c : Char) : Bool := isBareKeyChar c || c == '+' || c == '.'

/-- A value that is no array and no table. -/
def plainValue (cs : List Char) : Option (Node × List Char) :=
  match cs with
  | '"' :: _ | '\'' :: _ => (string cs).map fun r => (.string (String.ofList r.1), r.2)
  | cs =>
    match Moment.skip cs with
    | some rest => some (.moment, rest)
    | none =>
      (scalar (cs.takeWhile isScalarChar)).map fun node => (node, cs.dropWhile isScalarChar)

/-- A value with at most `room` arrays and tables inside one another. -/
def value : Nat → Reader Node
  | 0, cs => if cs.head? = some '[' ∨ cs.head? = some '\x7b' then none else plainValue cs
  | room + 1, cs =>
    match cs with
    | '[' :: rest => (items (value room) rest).map fun r => (.array r.1, r.2)
    | '{' :: rest => inlineTable (value room) rest
    | cs => plainValue cs

/-- What one line of a document says. -/
inductive Line where
  | blank
  | header (key : Key)
  | listHeader (key : Key)
  | assignment (key : Key) (value : Node)

def line (cs : List Char) : Option (Line × List Char) :=
  match skipSpaces cs with
  | '[' :: '[' :: rest =>
    match key rest with
    | some (key, ']' :: ']' :: rest) => (endLine rest).map fun below => (.listHeader key, below)
    | _ => none
  | '[' :: rest =>
    match key rest with
    | some (key, ']' :: rest) => (endLine rest).map fun below => (.header key, below)
    | _ => none
  | start =>
    match endLine start with
    | some below => some (.blank, below)
    | none =>
      match assignment (value maxNesting) start with
      | none => none
      | some ((key, value), rest) =>
        (endLine rest).map fun below => (.assignment key value, below)

/-- The lines of a document, or the number of characters behind the place where
it cannot be read. -/
def lines (cs : List Char) : Except Nat (List Line) :=
  match cs with
  | [] => .ok []
  | cs =>
    match line cs with
    | none => .error cs.length
    | some (l, rest) =>
      if _h : rest.length < cs.length then
        match lines rest with
        | .error n => .error n
        | .ok ls => .ok (l :: ls)
      else .error cs.length
termination_by cs.length

/-- The assignments before the first header. -/
def topAssignments : List Line → List (Key × Node)
  | .assignment key value :: ls => (key, value) :: topAssignments ls
  | .blank :: ls => topAssignments ls
  | _ => []

/-- Add the tables with headers, each with the assignments below its header. -/
def addTables (entries : Entries) : List Line → Option Entries
  | [] => some entries
  | .header key :: ls =>
    (alter (tableAt (topAssignments ls)) key entries).bind fun es => addTables es ls
  | .listHeader key :: ls =>
    (alter (tablesAt (topAssignments ls)) key entries).bind fun es => addTables es ls
  | _ :: ls => addTables entries ls

/-- Why a text is no document. -/
inductive Fault where
  | malformed (line : Nat)
  | duplicate
deriving DecidableEq, Repr

def Fault.message : Fault → String
  | malformed line => s!"malformed entry on line {line}"
  | duplicate => "a key is set twice"

/-- A mark of the byte order may stand before a document. -/
def dropMark : List Char → List Char
  | '\uFEFF' :: cs => cs
  | cs => cs

/-- The top table of a document. -/
def read (text : String) : Except Fault Entries :=
  let cs := dropMark text.toList
  match lines cs with
  | .error behind => .error (.malformed (Text.newlines (cs.take (cs.length - behind)) + 1))
  | .ok ls =>
    match (insertAll [] (topAssignments ls)).bind fun top => addTables top ls with
    | none => .error .duplicate
    | some entries => .ok entries

end Toml
end CheckScript
