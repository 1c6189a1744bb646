/-
What can be wrong with a script before it runs.
-/
import CheckScript.Script.Token

namespace CheckScript
namespace Script

/-- Deepest nesting of blocks and expressions that a script may use. -/
def maxNesting : Nat := 64

/-- The number of arguments that a function or method takes. -/
structure Arity where
  min : Nat
  max : Option Nat
deriving DecidableEq, Repr

namespace Arity

def exactly (n : Nat) : Arity := ⟨n, some n⟩

def between (min max : Nat) : Arity := ⟨min, some max⟩

def atLeast (n : Nat) : Arity := ⟨n, none⟩

def accepts (a : Arity) (count : Nat) : Bool :=
  a.min ≤ count && match a.max with
    | some max => count ≤ max
    | none => true

def description (a : Arity) : String :=
  match a.max with
  | none => s!"at least {a.min}"
  | some max => if max = a.min then toString max else s!"{a.min} to {max}"

end Arity

/-- What the grammar asks for at some place. -/
inductive Expectation where
  | expression
  | loopVariable
  | inKeyword
  | checkpointName
  | variableName
  | assignmentEnd
  | expressionEnd
  | declarationEquals
  | declarationEnd
  | blockStart
  | blockEnd
  | memberName
  | indexEnd
  | argumentsEnd
  | groupEnd
  | listEnd
deriving DecidableEq, Repr

namespace Expectation

def text : Expectation → String
  | expression => "expression"
  | loopVariable => "a loop variable"
  | inKeyword => "'in' after loop variable"
  | checkpointName => "checkpoint name string"
  | variableName => "a variable name"
  | assignmentEnd => "';' after assignment"
  | expressionEnd => "';' after expression"
  | declarationEquals => "'=' after variable name"
  | declarationEnd => "';' after let statement"
  | blockStart => "'\x7b'"
  | blockEnd => "'\x7d' to close block"
  | memberName => "a field or method name after '.'"
  | indexEnd => "']' after index"
  | argumentsEnd => "')' after arguments"
  | groupEnd => "')' after expression"
  | listEnd => "']' after list"

end Expectation

inductive Problem where
  | unexpectedCharacter (c : Char)
  | openComment
  | openString
  | unknownEscape (c : Char)
  | integerTooLarge (digits : List Char)
  | expected (what : Expectation) (found : TokenKind)
  | notCallable (found : TokenKind)
  | tooDeep (found : TokenKind)
  | redeclaredGlobal (name : String)
  | assignedGlobal (name : String)
  | assignedUndeclared (name : String)
  | undeclared (name : String)
  | notCalled (name : String)
  | unknownFunction (name : String)
  | functionArity (name : String) (arity : Arity) (given : Nat)
  | unknownMethod (name : String)
  | methodArity (name : String) (arity : Arity) (given : Nat)
deriving DecidableEq, Repr

namespace Problem

def message : Problem → String
  | unexpectedCharacter c => s!"unexpected character '{c}'"
  | openComment => "unterminated comment"
  | openString => "unterminated string literal"
  | unknownEscape c => "unknown escape '\\" ++ c.toString ++ "'"
  | integerTooLarge digits => s!"integer literal '{String.ofList digits}' is too large"
  | expected what found => s!"expected {what.text}, found {found.description}"
  | notCallable found => s!"only functions and methods can be called, found {found.description}"
  | tooDeep found => s!"nesting deeper than {maxNesting} levels, found {found.description}"
  | redeclaredGlobal name => s!"cannot redeclare global '{name}'"
  | assignedGlobal name => s!"cannot assign to global '{name}'"
  | assignedUndeclared name => s!"assignment to undeclared variable '{name}'"
  | undeclared name => s!"undeclared identifier '{name}'"
  | notCalled name => s!"'{name}' is a function and must be called"
  | unknownFunction name => s!"unknown function '{name}'"
  | functionArity name arity given =>
    s!"'{name}' takes {arity.description} argument(s), {given} given"
  | unknownMethod name => s!"unknown method '{name}'"
  | methodArity name arity given =>
    s!"method '{name}' takes {arity.description} argument(s), {given} given"

end Problem

structure Diagnostic where
  place : Position
  problem : Problem
deriving DecidableEq, Repr

namespace Diagnostic

def text (d : Diagnostic) : String :=
  s!"{d.place.line}:{d.place.column}: {d.problem.message}"

def noLater (a b : Diagnostic) : Bool := a.place.noLater b.place

end Diagnostic
end Script
end CheckScript
