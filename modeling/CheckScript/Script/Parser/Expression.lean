/-
The grammar of expressions.  Operators of six levels bind to the left; prefix
operators bind closer, member accesses, indexes and calls closest.
-/
import CheckScript.Script.Parser.Basic

namespace CheckScript
namespace Script

namespace UnaryOp

def ofToken : TokenKind → Option UnaryOp
  | .bang => some .not
  | .minus => some .negate
  | _ => none

end UnaryOp

namespace BinaryOp

def ofToken : TokenKind → Option BinaryOp
  | .pipePipe => some .or
  | .ampAmp => some .and
  | .equalEqual => some .eq
  | .bangEqual => some .ne
  | .less => some .lt
  | .lessEqual => some .le
  | .greater => some .gt
  | .greaterEqual => some .ge
  | .plus => some .add
  | .minus => some .sub
  | .star => some .mul
  | .slash => some .div
  | .percent => some .rem
  | _ => none

/-- The higher level binds closer. -/
def level : BinaryOp → Nat
  | or => 1
  | and => 2
  | eq | ne => 3
  | lt | le | gt | ge => 4
  | add | sub => 5
  | mul | div | rem => 6

end BinaryOp

namespace Parser

/- Every function takes the number of nesting levels that are left.  Each link
of a chain of operators or accesses takes one, as a parenthesis does, since it
deepens the tree as well. -/
mutual

/-- An expression whose operators all bind closer than level `min`. -/
def expressionAbove (room min : Nat) : Parser Expr := do
  let left ← unary room
  operators room min left
termination_by 4 * room + 3

/-- What follows the left operand of an operator above level `min`. -/
def operators (room min : Nat) (left : Expr) : Parser Expr := do
  let t ← peek
  match BinaryOp.ofToken t.kind with
  | none => return left
  | some op =>
    if op.level ≤ min then return left
    else nested room fun r _ => do
      let _ ← advance
      let right ← expressionAbove r op.level
      operators r min (.binary t.place op left right)
termination_by 4 * room

def unary (room : Nat) : Parser Expr := do
  let t ← peek
  match UnaryOp.ofToken t.kind with
  | some op => nested room fun r _ => do
    let _ ← advance
    let operand ← unary r
    return .unary t.place op operand
  | none =>
    let e ← primary room
    accesses room e
termination_by 4 * room + 2

/-- What follows an expression whose parts are accessed, or a function that is
called. -/
def accesses (room : Nat) (e : Expr) : Parser Expr := do
  let t ← peek
  match t.kind with
  | .dot => nested room fun r _ => do
    let _ ← advance
    let name ← identifier .memberName
    if ← accept .leftParen then
      let args ← listUpTo .rightParen .argumentsEnd (expressionAbove r 0)
      accesses r (.method t.place e name args)
    else accesses r (.field t.place e name)
  | .leftBracket => nested room fun r _ => do
    let _ ← advance
    let index ← expressionAbove r 0
    expect .rightBracket .indexEnd
    accesses r (.index t.place e index)
  | .leftParen => nested room fun r _ =>
    match e with
    | .ident p name => do
      let _ ← advance
      let args ← listUpTo .rightParen .argumentsEnd (expressionAbove r 0)
      accesses r (.call p name args)
    | _ => report .notCallable
  | _ => return e
termination_by 4 * room

def primary (room : Nat) : Parser Expr := do
  let t ← peek
  match t.kind with
  | .int n =>
    let _ ← advance
    return .int t.place n
  | .str s =>
    let _ ← advance
    return .str t.place s
  | .trueWord =>
    let _ ← advance
    return .bool t.place true
  | .falseWord =>
    let _ ← advance
    return .bool t.place false
  | .nullWord =>
    let _ ← advance
    return .null t.place
  | .ident name =>
    let _ ← advance
    return .ident t.place name
  | .leftParen => nested room fun r _ => do
    let _ ← advance
    let e ← expressionAbove r 0
    expect .rightParen .groupEnd
    return e
  | .leftBracket => nested room fun r _ => do
    let _ ← advance
    let items ← listUpTo .rightBracket .listEnd (expressionAbove r 0)
    return .list t.place items
  | _ => missing .expression
termination_by 4 * room + 1

end

def expression (room : Nat) : Parser Expr := expressionAbove room 0

end Parser
end Script
end CheckScript
