/-
What can go wrong while a script runs.
-/
import CheckScript.Script.Syntax
import CheckScript.Script.Value

namespace CheckScript
namespace Script

inductive Fault where
  | undeclared (name : String)
  | assignedUndeclared (name : String)
  | unknownFunction (name : String)
  | unknownMethod (name : String)
  | missingArgument (function : String) (number : Nat)
  | argumentNotString (function : String) (number : Nat) (got : ValueKind)
  | conditionNotBool (got : ValueKind)
  | assertNotBool (got : Option ValueKind)
  | badTimeout (got : String)
  | notConvertible (got : ValueKind)
  | notNumeral (text : String)
  | noLength (got : ValueKind)
  | noTag (name : String)
  | noFileName (path : String)
  | notIterable (got : ValueKind)
  | notNegatable (got : ValueKind)
  | notLogical (got : ValueKind)
  | overflow
  | divisionByZero
  | operands (op : BinaryOp) (left right : ValueKind)
  | noEntry (name : String)
  | noFields (got : ValueKind) (path : String)
  | noField (path object : String)
  | indexOutOfRange (index : Int) (length : Nat)
  | notIndexable (object index : ValueKind)
  | fieldNotString (path : String) (got : ValueKind)
  | fieldNotInteger (path : String) (got : ValueKind)
  | fieldNotNumeral (path text : String)
  | notRecord (method : String) (got : ValueKind)
  | tokenTooLarge (token : Nat)
  | notContainer (object item : ValueKind)
  | startOfNonString (got : ValueKind)
  | openPlaceholder
  | badPlaceholder (text : String)
  | placeholderOutOfRange (index given : Nat)
deriving DecidableEq, Repr

namespace Fault

def message : Fault → String
  | undeclared name => s!"undeclared identifier '{name}'"
  | assignedUndeclared name => s!"assignment to undeclared variable '{name}'"
  | unknownFunction name => s!"unknown function '{name}'"
  | unknownMethod name => s!"unknown method '{name}'"
  | missingArgument function number => s!"'{function}' is missing argument {number}"
  | argumentNotString function number got =>
    s!"argument {number} of '{function}' must be a string, got {got.name}"
  | conditionNotBool got => s!"condition must be a bool, got {got.name}"
  | assertNotBool none => "assert expects a bool, got nothing"
  | assertNotBool (some got) => s!"assert expects a bool, got {got.name}"
  | badTimeout got => s!"expect timeout must be a non-negative int, got {got}"
  | notConvertible got => s!"cannot convert {got.name} to int"
  | notNumeral text => s!"cannot convert {Text.Quoted.encode text} to int"
  | noLength got => s!"{got.name} has no length"
  | noTag name => s!"no line tag '{name}'"
  | noFileName path => s!"'{path}' has no file name"
  | notIterable got => s!"cannot iterate over {got.name}"
  | notNegatable got => s!"cannot negate {got.name}"
  | notLogical got => s!"cannot apply '!' to {got.name}"
  | overflow => "integer overflow"
  | divisionByZero => "division by zero"
  | operands op left right => s!"cannot apply '{op.symbol}' to {left.name} and {right.name}"
  | noEntry name => s!"no entry '{name}'"
  | noFields got path => s!"{got.name} has no field '{path}'"
  | noField path object => s!"no field '{path}' in {object}"
  | indexOutOfRange index length => s!"index {index} out of range for list of {length}"
  | notIndexable object index => s!"cannot index {object.name} with {index.name}"
  | fieldNotString path got => s!"'{path}' is a {got.name}, not a string"
  | fieldNotInteger path got => s!"'{path}' is a {got.name}, not an integer"
  | fieldNotNumeral path text => s!"'{path}' is {Text.Quoted.encode text}, not an integer"
  | notRecord method got => s!"'{method}' needs a record, got {got.name}"
  | tokenTooLarge token => s!"token {token} does not fit in an integer"
  | notContainer object item => s!"cannot check whether {object.name} contains {item.name}"
  | startOfNonString got => s!"'starts_with' needs a string, got {got.name}"
  | openPlaceholder => "unterminated placeholder in format"
  | badPlaceholder text => "bad placeholder '\x7b" ++ text ++ "\x7d' in format"
  | placeholderOutOfRange index given =>
    "placeholder \x7b" ++ toString index ++ "\x7d but only " ++ toString given ++ " argument(s)"

end Fault
end Script
end CheckScript
