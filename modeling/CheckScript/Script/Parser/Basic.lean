/-
Reading a list of tokens.  A parser either gives a value or has reported a
problem; in both cases it says how far it has read.
-/
import CheckScript.Script.Diagnostic
import CheckScript.Script.Syntax

namespace CheckScript
namespace Script

namespace Parser

/-- The tokens not read yet, the mark that ends the script, and what was
reported so far. -/
structure State where
  rest : List Token
  finish : Token
  diagnostics : List Diagnostic

namespace State

/-- The next token.  The end of the script is never passed. -/
def head (s : State) : Token :=
  match s.rest with
  | [] => s.finish
  | t :: _ => t

/-- The kind of the token behind the next one. -/
def second? (s : State) : Option TokenKind :=
  match s.rest with
  | _ :: t :: _ => some t.kind
  | _ => none

def atEnd (s : State) : Bool := s.rest.isEmpty

def ofTokens (tokens : List Token) : State :=
  { rest := tokens.takeWhile fun t => t.kind != .finish
    finish := (tokens.find? fun t => t.kind == .finish).getD ⟨.finish, .start⟩
    diagnostics := [] }

end State
end Parser

def Parser (α : Type) : Type := Parser.State → Option α × Parser.State

namespace Parser

instance : Monad Parser where
  pure a := fun s => (some a, s)
  bind p f := fun s =>
    match p s with
    | (some a, t) => f a t
    | (none, t) => (none, t)

theorem pure_apply {α : Type} (a : α) (s : State) : (pure a : Parser α) s = (some a, s) := rfl

theorem bind_apply {α β : Type} (p : Parser α) (f : α → Parser β) (s : State) :
    (p >>= f) s = match p s with
      | (some a, t) => f a t
      | (none, t) => (none, t) := rfl

def peek : Parser Token := fun s => (some s.head, s)

def second : Parser (Option TokenKind) := fun s => (some s.second?, s)

def advance : Parser Token := fun s =>
  match s.rest with
  | [] => (some s.finish, s)
  | t :: rest => (some t, { s with rest := rest })

/-- Report a problem with the next token. -/
def report {α : Type} (problem : TokenKind → Problem) : Parser α := fun s =>
  (none, { s with diagnostics := s.diagnostics ++ [⟨s.head.place, problem s.head.kind⟩] })

def missing {α : Type} (what : Expectation) : Parser α := report (.expected what)

/-- Pass a token of the given kind, which must come next. -/
def expect (kind : TokenKind) (what : Expectation) : Parser Unit := do
  let t ← peek
  if t.kind = kind then
    let _ ← advance
  else missing what

/-- Pass a token of the given kind if it comes next. -/
def accept (kind : TokenKind) : Parser Bool := do
  let t ← peek
  if t.kind = kind then
    let _ ← advance
    return true
  else return false

def identifier (what : Expectation) : Parser String := do
  let t ← peek
  match t.kind with
  | .ident name =>
    let _ ← advance
    return name
  | _ => missing what

/-- Go one level deeper.  `room` is the number of levels that are left. -/
def nested {α : Type} (room : Nat) (p : (r : Nat) → r < room → Parser α) : Parser α :=
  match room with
  | 0 => report .tooDeep
  | r + 1 => p r (Nat.lt_succ_self r)

/-- One item or more, with commas between them.  The test that a comma was read
behind the place where the item began always holds for the items of the
grammar. -/
def separated {α : Type} (item : Parser α) (s : State) : Option (List α) × State :=
  match item s with
  | (none, t) => (none, t)
  | (some a, t) =>
    match t.rest with
    | [] => (some [a], t)
    | comma :: rest =>
      if comma.kind = .comma then
        if rest.length < s.rest.length then
          match separated item { t with rest := rest } with
          | (none, u) => (none, u)
          | (some as, u) => (some (a :: as), u)
        else (none, t)
      else (some [a], t)
termination_by s.rest.length

/-- Items with commas between them, then the token that closes the list. -/
def listUpTo {α : Type} (closing : TokenKind) (what : Expectation) (item : Parser α) :
    Parser (List α) := do
  if ← accept closing then return []
  else
    let items ← separated item
    expect closing what
    return items

/-- Where a statement may begin again after a problem: behind a semicolon, or at
the end of a block or a keyword that begins a statement. -/
def skipStatement : List Token → List Token
  | [] => []
  | t :: rest =>
    match t.kind with
    | .semicolon => rest
    | .rightBrace | .letWord | .ifWord | .whileWord | .forWord | .checkpointWord => t :: rest
    | _ => skipStatement rest

def recover (s : State) : State := { s with rest := skipStatement s.rest }

/-- Go on at `t` after a statement tried at `s`, at least one token further. -/
def onward (s t : State) : State :=
  if t.rest.length < s.rest.length then t else { t with rest := s.rest.drop 1 }

theorem onward_length {s t : State} (h : s.rest ≠ []) :
    (onward s t).rest.length < s.rest.length := by
  have hpos : 0 < s.rest.length := List.length_pos_iff.2 h
  unfold onward
  split
  · assumption
  · simp only [List.length_drop]; omega

/-- Statements up to a token of the kind `closing` or to the end.  A statement
with a problem is left out and reading goes on behind it. -/
def statementsUntil (closing : Option TokenKind) (statement : Parser Stmt) (s : State) :
    List Stmt × State :=
  if h : s.rest = [] then ([], s)
  else if some s.head.kind = closing then ([], s)
  else
    match statement s with
    | (some stmt, t) =>
      have := onward_length (t := t) h
      let r := statementsUntil closing statement (onward s t)
      (stmt :: r.1, r.2)
    | (none, t) =>
      have := onward_length (t := recover t) h
      statementsUntil closing statement (onward s (recover t))
termination_by s.rest.length

end Parser
end Script
end CheckScript
