/-
Command lines as trees.
-/
import CheckScript.Text.Bytes

namespace CheckScript
namespace Shell

/-- What a stream is joined to by a redirection.  A document is text that stands
in the command line itself. -/
inductive Opening where
  | read
  | write
  | replace
  | append
  | readWrite
  | duplicate
  | document
deriving DecidableEq, Repr

/-- What is made of the value of a parameter.  With `orEmpty` an empty value
counts as a missing one; with `longest` as much as possible is removed. -/
inductive Form where
  | plain
  | length
  | fallback (orEmpty : Bool)
  | alternative (orEmpty : Bool)
  | assign (orEmpty : Bool)
  | require (orEmpty : Bool)
  | dropStart (longest : Bool)
  | dropEnd (longest : Bool)
  | malformed
deriving DecidableEq, Repr

mutual

/-- A piece of a word.  Quoted pieces stand for themselves; `blank` is a
quotation without anything in it, which makes a word all the same. -/
inductive Piece where
  | char (c : Char) (quoted : Bool)
  | blank
  | parameter (name : Bytes) (form : Form) (word : List Piece) (quoted : Bool)
  | output (command : Command) (quoted : Bool)
  | number (expression : List Piece) (quoted : Bool)

inductive Redirection where
  | mk (stream : Nat) (opening : Opening) (target : List Piece)

/-- Commands know the line on which they begin, for messages.  A loop goes on as
long as its condition succeeds or fails, whichever is wanted. -/
inductive Command where
  | nothing
  | simple (line : Nat) (assignments : List (Bytes × List Piece)) (words : List (List Piece))
      (redirections : List Redirection)
  | pipeline (commands : List Command)
  | negation (body : Command)
  | conjunction (first second : Command)
  | disjunction (first second : Command)
  | sequence (first second : Command)
  | background (body : Command)
  | subshell (line : Nat) (body : Command) (redirections : List Redirection)
  | redirected (line : Nat) (body : Command) (redirections : List Redirection)
  | branch (condition body otherwise : Command)
  | loop (wanted : Bool) (condition body : Command)
  | each (line : Nat) (name : Bytes) (words : Option (List (List Piece))) (body : Command)
  | choice (line : Nat) (subject : List Piece) (arms : List (List (List Piece) × Command))
  | define (name : Bytes) (body : Command)

end

instance : Inhabited Command := ⟨.nothing⟩

abbrev Word := List Piece

namespace Redirection

def stream : Redirection → Nat
  | mk stream _ _ => stream

def opening : Redirection → Opening
  | mk _ opening _ => opening

def target : Redirection → Word
  | mk _ _ target => target

end Redirection

def isSpace (c : Char) : Bool := c == ' ' || c == '\t' || c == '\n'

def isDigit (c : Char) : Bool := '0' ≤ c && c ≤ '9'

def isNameStart (c : Char) : Bool := ('a' ≤ c && c ≤ 'z') || ('A' ≤ c && c ≤ 'Z') || c == '_'

def isNameChar (c : Char) : Bool := isNameStart c || isDigit c

def isName : Bytes → Bool
  | [] => false
  | c :: cs => isNameStart c && cs.all isNameChar

/-- Parameters that have one character for a name. -/
def isSpecial (c : Char) : Bool := "?$!#-@*".toList.contains c

/-- The text of a word without quotes and parameters. -/
def bare? : Word → Option Bytes
  | [] => some []
  | .char c false :: ps => (bare? ps).map (c :: ·)
  | _ :: _ => none

/-- A name and an equals sign at the front of a word, and what follows them. -/
def assignment? (w : Word) : Option (Bytes × Word) :=
  let front := w.takeWhile fun
    | .char c false => c != '='
    | _ => false
  match bare? front, w.drop front.length with
  | some name, .char '=' false :: value => if isName name then some (name, value) else none
  | _, _ => none

end Shell
end CheckScript
