/-
The grammar of statements.
-/
import CheckScript.Script.Parser.Expression

namespace CheckScript
namespace Script
namespace Parser

/-- A condition with its body, from its first word, and whether another branch
follows. -/
def arm (cond : Parser Expr) (body : Parser (List Stmt)) :
    Parser (Nat × Expr × List Stmt × Bool) := do
  let t ← advance
  let c ← cond
  let b ← body
  let more ← accept .elseWord
  return (t.place.line, c, b, more)

/-- A condition with its branches.  The test that a further condition begins
behind the first one always holds for the parts of the grammar. -/
def conditional (cond : Parser Expr) (body : Parser (List Stmt)) (s : State) :
    Option Stmt × State :=
  match arm cond body s with
  | (none, t) => (none, t)
  | (some (line, c, b, false), t) => (some (.branch line c b none), t)
  | (some (line, c, b, true), t) =>
    if t.head.kind = .ifWord then
      if t.rest.length < s.rest.length then
        match conditional cond body t with
        | (none, u) => (none, u)
        | (some other, u) => (some (.branch line c b (some other)), u)
      else (none, t)
    else
      match body t with
      | (none, u) => (none, u)
      | (some stmts, u) =>
        (some (.branch line c b (some (.block t.head.place.line stmts))), u)
termination_by s.rest.length

def checkpointName : Parser String := do
  let t ← peek
  match t.kind with
  | .str name =>
    let _ ← advance
    return name
  | _ => missing .checkpointName

mutual

def statement (room : Nat) : Parser Stmt := do
  let t ← peek
  let line := t.place.line
  match t.kind with
  | .letWord =>
    let _ ← advance
    let name ← identifier .variableName
    expect .equal .declarationEquals
    let value ← expression room
    expect .semicolon .declarationEnd
    return .declare line name value
  | .ifWord => conditional (expression room) (block room)
  | .whileWord =>
    let _ ← advance
    let cond ← expression room
    let body ← block room
    return .loop line cond body
  | .forWord =>
    let _ ← advance
    let name ← identifier .loopVariable
    expect .inWord .inKeyword
    let items ← expression room
    let body ← block room
    return .each line name items body
  | .checkpointWord =>
    let _ ← advance
    let name ← checkpointName
    let body ← block room
    return .checkpoint line name body
  | .leftBrace =>
    let body ← block room
    return .block line body
  | .ident name =>
    if (← second) = some .equal then
      let _ ← advance
      let _ ← advance
      let value ← expression room
      expect .semicolon .assignmentEnd
      return .assign line name value
    else
      let e ← expression room
      expect .semicolon .expressionEnd
      return .evaluate line e
  | _ =>
    let e ← expression room
    expect .semicolon .expressionEnd
    return .evaluate line e
termination_by 2 * room + 1

def block (room : Nat) : Parser (List Stmt) := do
  expect .leftBrace .blockStart
  nested room fun r _ => do
    let stmts ← fun s =>
      let found := statementsUntil (some .rightBrace) (statement r) s
      (some found.1, found.2)
    expect .rightBrace .blockEnd
    return stmts
termination_by 2 * room

end

end Parser

/-- The statements that could be read, and every problem with the others. -/
def parse (tokens : List Token) : Program × List Diagnostic :=
  let r := Parser.statementsUntil none (Parser.statement maxNesting) (.ofTokens tokens)
  (⟨r.1⟩, r.2.diagnostics)

end Script
end CheckScript
