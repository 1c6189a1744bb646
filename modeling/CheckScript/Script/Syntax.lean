/-
Syntax trees of scripts.
-/
import CheckScript.Script.Position

namespace CheckScript
namespace Script

inductive UnaryOp where
  | not
  | negate
deriving DecidableEq, Repr

inductive BinaryOp where
  | add
  | sub
  | mul
  | div
  | rem
  | eq
  | ne
  | lt
  | le
  | gt
  | ge
  | and
  | or
deriving DecidableEq, Repr

namespace UnaryOp

def symbol : UnaryOp → String
  | not => "!"
  | negate => "-"

end UnaryOp

namespace BinaryOp

def symbol : BinaryOp → String
  | add => "+"
  | sub => "-"
  | mul => "*"
  | div => "/"
  | rem => "%"
  | eq => "=="
  | ne => "!="
  | lt => "<"
  | le => "<="
  | gt => ">"
  | ge => ">="
  | and => "&&"
  | or => "||"

end BinaryOp

/-- Expressions.  Operators and member accesses stand at their sign, a call at
the name of its function. -/
inductive Expr where
  | int (p : Position) (n : Int)
  | str (p : Position) (s : String)
  | bool (p : Position) (b : Bool)
  | null (p : Position)
  | list (p : Position) (items : List Expr)
  | ident (p : Position) (name : String)
  | unary (p : Position) (op : UnaryOp) (operand : Expr)
  | binary (p : Position) (op : BinaryOp) (left right : Expr)
  | field (p : Position) (object : Expr) (name : String)
  | index (p : Position) (object index : Expr)
  | call (p : Position) (function : String) (args : List Expr)
  | method (p : Position) (object : Expr) (name : String) (args : List Expr)

namespace Expr

def place : Expr → Position
  | int p _ | str p _ | bool p _ | null p | list p _ | ident p _ | unary p _ _ | binary p _ _ _
  | field p _ _ | index p _ _ | call p _ _ | method p _ _ _ => p

def line (e : Expr) : Nat := e.place.line

end Expr

/-- Statements with the line of their first word.  The other branch of a
condition is a block or one more condition. -/
inductive Stmt where
  | declare (line : Nat) (name : String) (value : Expr)
  | assign (line : Nat) (name : String) (value : Expr)
  | evaluate (line : Nat) (e : Expr)
  | branch (line : Nat) (cond : Expr) (body : List Stmt) (other : Option Stmt)
  | loop (line : Nat) (cond : Expr) (body : List Stmt)
  | each (line : Nat) (name : String) (items : Expr) (body : List Stmt)
  | block (line : Nat) (body : List Stmt)
  | checkpoint (line : Nat) (name : String) (body : List Stmt)

namespace Stmt

def line : Stmt → Nat
  | declare l _ _ | assign l _ _ | evaluate l _ | branch l _ _ _ | loop l _ _ | each l _ _ _
  | block l _ | checkpoint l _ _ => l

end Stmt

structure Program where
  stmts : List Stmt

end Script
end CheckScript
