/-
What operators, accesses and methods do with values.
-/
import CheckScript.Record.Find
import CheckScript.Script.Builtin
import CheckScript.Script.Fault

namespace CheckScript
namespace Script

/-- An exact result, if it is a script integer. -/
def bounded (n : Int) : Except Fault Value :=
  if Integer.fits n then .ok (.int n) else .error .overflow

/-- Division goes toward zero, and the remainder has the sign of the dividend.
A remainder is refused where its quotient is. -/
def divide (a b result : Int) : Except Fault Value :=
  if b = 0 then .error .divisionByZero
  else if Integer.fits (a.tdiv b) then .ok (.int result)
  else .error .overflow

namespace UnaryOp

def apply (op : UnaryOp) (v : Value) : Except Fault Value :=
  match op, v with
  | not, .bool b => .ok (.bool !b)
  | negate, .int n => bounded (-n)
  | not, v => .error (.notLogical v.kind)
  | negate, v => .error (.notNegatable v.kind)

end UnaryOp

namespace BinaryOp

/-- The comparison that an operator stands for, from "less" and "greater". -/
def holds (op : BinaryOp) (less greater : Bool) : Bool :=
  match op with
  | lt => less
  | le => !greater
  | gt => greater
  | _ => !less

def isComparison : BinaryOp → Bool
  | lt | le | gt | ge => true
  | _ => false

def applyInts (op : BinaryOp) (a b : Int) : Except Fault Value :=
  match op with
  | add => bounded (a + b)
  | sub => bounded (a - b)
  | mul => bounded (a * b)
  | div => divide a b (a.tdiv b)
  | rem => divide a b (a.tmod b)
  | eq => .ok (.bool (a == b))
  | ne => .ok (.bool (a != b))
  | lt | le | gt | ge => .ok (.bool (op.holds (a < b) (b < a)))
  | and | or => .error (.operands op .int .int)

/-- A string joins anything that it is added to. -/
def isJoin (op : BinaryOp) (v w : Value) : Bool :=
  op == add && (v.kind == .str || w.kind == .str)

def apply (op : BinaryOp) (v w : Value) : Except Fault Value :=
  if op = eq then .ok (.bool (v.same w))
  else if op = ne then .ok (.bool !(v.same w))
  else if op.isJoin v w then .ok (.str (v.text ++ w.text))
  else
    match v, w with
    | .int a, .int b => op.applyInts a b
    | .list vs, .list ws =>
      if op = add then .ok (.list (vs ++ ws)) else .error (.operands op .list .list)
    | .str s, .str t =>
      if op.isComparison then .ok (.bool (op.holds (s < t) (t < s)))
      else .error (.operands op .str .str)
    | v, w => .error (.operands op v.kind w.kind)

end BinaryOp

namespace Value

/-- The tuple or list that a record or a part of one shows. -/
def node? : Value → Option RecordValue
  | record r => some r.results
  | node v => some v
  | _ => none

/-- The value at a dotted path. -/
def find (v : Value) (path : String) : Except Fault Value :=
  match v.node? with
  | none => .error (.noFields v.kind path)
  | some n =>
    match n.find? path with
    | none => .error (.noField path v.text)
    | some w => .ok (.ofRecordValue w)

def field (v : Value) (name : String) : Except Fault Value :=
  match v with
  | map tags =>
    match tags.get? name with
    | none => .error (.noEntry name)
    | some line => .ok (.int line)
  | v => v.find name

def item (items : List Value) (i : Int) : Except Fault Value :=
  match if i < 0 then none else items[i.toNat]? with
  | none => .error (.indexOutOfRange i items.length)
  | some v => .ok v

def index (v i : Value) : Except Fault Value :=
  match v, i with
  | list items, int i => item items i
  | map tags, str name =>
    match tags.get? name with
    | none => .error (.noTag name)
    | some line => .ok (.int line)
  | record r, int i => (record r).find (toString i)
  | record r, str path => (record r).find path
  | node n, int i => (node n).find (toString i)
  | node n, str path => (node n).find path
  | v, i => .error (.notIndexable v.kind i.kind)

/-- The values that a loop runs through; of a map, the names. -/
def elements (v : Value) : Except Fault (List Value) :=
  match v with
  | list items => .ok items
  | node (.list items) => .ok (items.map ofRecordValue)
  | map tags => .ok (tags.names.map str)
  | v => .error (.notIterable v.kind)

def length (v : Value) : Except Fault Nat :=
  match v with
  | str s => .ok s.toList.length
  | list items => .ok items.length
  | map tags => .ok tags.size
  | node (.list items) => .ok items.length
  | node (.tuple fields) => .ok fields.length
  | v => .error (.noLength v.kind)

def toInt (v : Value) : Except Fault Value :=
  match v with
  | int n => .ok (.int n)
  | str s =>
    match Record.integerOf? s with
    | none => .error (.notNumeral s)
    | some n => .ok (.int n)
  | v => .error (.notConvertible v.kind)

end Value

/-- The argument with this number, counted from 1. -/
def argument (function : String) (args : List Value) (number : Nat) : Except Fault Value :=
  match args[number - 1]? with
  | none => .error (.missingArgument function number)
  | some v => .ok v

def stringArgument (function : String) (args : List Value) (number : Nat) : Except Fault String :=
  match args[number - 1]? with
  | none => .error (.missingArgument function number)
  | some (.str s) => .ok s
  | some v => .error (.argumentNotString function number v.kind)

namespace Method

def record (m : Method) (v : Value) : Except Fault Record :=
  match v with
  | .record r => .ok r
  | v => .error (.notRecord m.name v.kind)

def containsValue (v w : Value) : Except Fault Value :=
  match v, w with
  | .str s, .str needle => .ok (.bool (Text.contains s needle))
  | .list items, w => .ok (.bool (items.any fun item => item.same w))
  | .map tags, .str name => .ok (.bool (tags.get? name).isSome)
  | v, w => .error (.notContainer v.kind w.kind)

def apply (m : Method) (v : Value) (args : List Value) : Except Fault Value := do
  match m with
  | find => v.find (← stringArgument m.name args 1)
  | has =>
    let path ← stringArgument m.name args 1
    return .bool ((v.node?.bind fun n => n.find? path).isSome)
  | findString =>
    let path ← stringArgument m.name args 1
    match ← v.find path with
    | .str s => return .str s
    | w => throw (.fieldNotString path w.kind)
  | findInt =>
    let path ← stringArgument m.name args 1
    match ← v.find path with
    | .str s =>
      match Record.integerOf? s with
      | none => throw (.fieldNotNumeral path s)
      | some n => return .int n
    | w => throw (.fieldNotInteger path w.kind)
  | className => return .str (← m.record v).className
  | kind => return .str (← m.record v).kind.name
  | token =>
    match (← m.record v).token with
    | none => return .null
    | some t => if Integer.fits t then return .int t else throw (.tokenTooLarge t)
  | text =>
    match (← m.record v).text with
    | none => return .null
    | some t => return .str t
  | contains => containsValue v (← argument m.name args 1)
  | startsWith =>
    match v with
    | .str s => return .bool (Text.startsWith s (← stringArgument m.name args 1))
    | v => throw (.startOfNonString v.kind)

end Method
end Script
end CheckScript
