/-
Reading command lines: the characters, and the signs between words.
-/
import CheckScript.Outside.Shell.Syntax

namespace CheckScript
namespace Shell

/-- Why a text is no command line.  Tokens are given as messages show them. -/
inductive SyntaxFault where
  | unexpected (found : String) (expected : Option String)
  | openQuotation
  | openBrace
  | openParentheses
  | openBackquote
  | loopName
  | functionName
  | tooDeep
deriving DecidableEq, Repr

namespace SyntaxFault

def message : SyntaxFault → String
  | unexpected found none => s!"{found} unexpected"
  | unexpected found (some expected) => s!"{found} unexpected (expecting {expected})"
  | openQuotation => "Unterminated quoted string"
  | openBrace => "Missing '\x7d'"
  | openParentheses => "Missing '))'"
  | openBackquote => "EOF in backquote substitution"
  | loopName => "Bad for loop variable"
  | functionName => "Bad function name"
  | tooDeep => "too many levels"

end SyntaxFault

/-- A fault and the line that was reached. -/
structure Refusal where
  line : Nat
  fault : SyntaxFault
deriving DecidableEq, Repr

inductive Token where
  | endOfText
  | newline
  | semicolon
  | ampersand
  | andIf
  | orIf
  | pipe
  | openParenthesis
  | closeParenthesis
  | endArm
  | redirection (stream : Option Nat) (opening : Opening) (stripTabs : Bool)
  | word (w : Word)

/-- What is left to read.  The lines of documents are taken out of it ahead of
time; `owed` counts those that the next newline stands for.  One token can be
looked at before it is taken.  No loop over the text takes more steps than
`bound`. -/
structure Reading where
  rest : List Char
  bound : Nat
  line : Nat
  owed : Nat
  ahead : Option Token

def Reading.ofText (b : Bytes) (line : Nat) : Reading :=
  { rest := b, bound := 2 * b.length + 8, line, owed := 0, ahead := none }

abbrev Parser := StateT Reading (Except Refusal)

namespace Parser

def fail {α : Type} (fault : SyntaxFault) : Parser α := do
  throw ⟨(← get).line, fault⟩

/-- Take the next character as it stands. -/
def raw : Parser (Option Char) := do
  let s ← get
  match s.rest with
  | [] => return none
  | c :: rest =>
    if c = '\n' then set { s with rest, line := s.line + 1 + s.owed, owed := 0 }
    else set { s with rest }
    return some c

/-- Drop what joins lines at the front of a text; the number of joints goes with
it. -/
def skipJoints (lines : Nat) : List Char → List Char × Nat
  | '\\' :: '\n' :: cs => skipJoints (lines + 1) cs
  | cs => (cs, lines)

/-- The next character, if a backslash at the end of a line joins the next line
to it. -/
def peek : Parser (Option Char) := do
  let s ← get
  let r := skipJoints 0 s.rest
  set { s with rest := r.1, line := s.line + r.2 }
  return r.1.head?

def next : Parser (Option Char) := do
  let _ ← peek
  raw

/-- Take the next character if it is `c`. -/
def accept (c : Char) : Parser Bool := do
  if (← peek) = some c then
    let _ ← raw
    return true
  else return false

/-- The characters at the front that have a property. -/
def takeWhile (p : Char → Bool) : Parser (List Char) := do
  let s ← get
  let cs := s.rest.takeWhile p
  set { s with rest := s.rest.drop cs.length }
  return cs

end Parser

/-- Words that begin or end a part of a command. -/
def keywords : List String :=
  ["!", "case", "do", "done", "elif", "else", "esac", "fi", "for", "if", "in", "then", "until",
    "while", "\x7b", "\x7d"]

namespace Token

/-- The keyword that a token is, where keywords are looked for. -/
def keyword? : Token → Option String
  | .word w => (bare? w).bind fun b => keywords.find? fun k => k.toList == b
  | _ => none

def isKeyword (t : Token) (k : String) : Bool := t.keyword? == some k

/-- A token as messages show it. -/
def shown (t : Token) : String :=
  match t with
  | .endOfText => "end of file"
  | .newline => "newline"
  | .semicolon => "\";\""
  | .ampersand => "\"&\""
  | .andIf => "\"&&\""
  | .orIf => "\"||\""
  | .pipe => "\"|\""
  | .openParenthesis => "\"(\""
  | .closeParenthesis => "\")\""
  | .endArm => "\";;\""
  | .redirection .. => "redirection"
  | .word _ =>
    match t.keyword? with
    | some k => s!"\"{k}\""
    | none => "word"

/-- Whether a token can only stand behind a list of commands. -/
def closesList (t : Token) : Bool :=
  match t with
  | .endOfText | .closeParenthesis | .endArm => true
  | t =>
    match t.keyword? with
    | some k => ["do", "done", "elif", "else", "esac", "fi", "then", "\x7d"].contains k
    | none => false

end Token

end Shell
end CheckScript
