/-
Comments of a source file, and the script that they hold.
-/

namespace CheckScript

/-- Documentation belongs to the program, so it is told apart from the comments
that may hold a script. -/
inductive CommentKind where
  | line
  | block
  | doc
deriving DecidableEq, Repr

/-- A comment with its delimiters and the lines of its first and last
character, counted from 1. -/
structure Comment where
  kind : CommentKind
  text : List Char
  startLine : Nat
  endLine : Nat
deriving DecidableEq, Repr

namespace Comment

/-- The text between the delimiters. -/
def body (c : Comment) : List Char :=
  match c.kind with
  | .line => c.text.drop 2
  | .block => (c.text.drop 2).take (c.text.length - 4)
  | .doc =>
    if c.text.take 2 = ['/', '*'] then (c.text.drop 3).take (c.text.length - 5)
    else c.text.drop 3

/-- A fourth slash turns a line of documentation into a separator. -/
def lineKind (text : List Char) : CommentKind :=
  match text with
  | _ :: _ :: '!' :: _ => .doc
  | _ :: _ :: '/' :: '/' :: _ => .line
  | _ :: _ :: '/' :: _ => .doc
  | _ => .line

/-- The empty comment and a row of stars document nothing. -/
def blockKind (text : List Char) : CommentKind :=
  match text with
  | ['/', '*', '*', '/'] => .block
  | _ :: _ :: '!' :: _ => .doc
  | _ :: _ :: '*' :: '*' :: _ => .block
  | _ :: _ :: '*' :: _ => .doc
  | _ => .block

def ofLine (line : Nat) (text : List Char) : Comment :=
  ⟨lineKind text, text, line, line⟩

def ofBlock (line : Nat) (text : List Char) : Comment :=
  ⟨blockKind text, text, line, line + text.count '\n'⟩

end Comment

namespace Source

/-- Comment bodies one after another, each on the line its comment stands on,
if what has been written so far ends on line `line`. -/
def scriptFrom (line : Nat) : List Comment → List Char
  | [] => []
  | c :: cs =>
    match c.kind with
    | .doc => scriptFrom line cs
    | _ => List.replicate (c.startLine - line) '\n' ++ c.body ++ scriptFrom c.endLine cs

def script (comments : List Comment) : String := String.ofList (scriptFrom 1 comments)

end Source
end CheckScript
