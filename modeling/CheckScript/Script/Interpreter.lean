/-
Running scripts.
-/
import CheckScript.Script.Session

namespace CheckScript
namespace Script

open Run

/-- The value of a name that no block declares. -/
def globalValue (g : Environment) (name : String) : Except Fault Value :=
  match Global.ofName? name with
  | some .lines => .ok (.map g.tags)
  | some .testSource => .ok (.str g.source.text)
  | some .testBinary => .ok (.str g.binary.text)
  | none => .error (.undeclared name)

def lookup (g : Environment) (line : Nat) (name : String) : Run Value := do
  match (← scopes).get? name with
  | some v => return v
  | none => onLine line (globalValue g name)

def asCondition (line : Nat) : Value → Run Bool
  | .bool b => return b
  | v => onLine line (.error (.conditionNotBool v.kind))

/-- The time to wait that a call of `expect` asks for. -/
def timeoutOf (default : Duration) : Option Value → Except Fault Duration
  | none => .ok default
  | some (.int n) =>
    if 0 ≤ n then .ok (.ofSeconds n.toNat) else .error (.badTimeout (Value.int n).quoted)
  | some v => .error (.badTimeout v.quoted)

def assertTrue (line : Nat) (args : List Value) : Run Value :=
  match args[0]? with
  | none => onLine line (.error (.assertNotBool none))
  | some (Value.bool true) => return Value.null
  | some (Value.bool false) =>
    fail (.assertion line ((args[1]?.map Value.text).getD "condition is false") [])
  | some v => onLine line (.error (.assertNotBool (some v.kind)))

/-- Compare the first two arguments; `wanted` says whether they should be equal. -/
def assertEqual (line : Nat) (wanted : Bool) (function : String) (args : List Value) :
    Run Value := do
  let expected ← onLine line (argument function args 1)
  let actual ← onLine line (argument function args 2)
  let equal := expected.same actual
  if equal = wanted then return .null
  else
    let message :=
      if equal then s!"values should differ, both are {actual.description}"
      else s!"expected {expected.description}, got {actual.description}"
    match args[2]? with
    | none => fail (.assertion line message [])
    | some note => fail (.assertion line s!"{note.text}: {message}" [])

/-- Call a function with arguments that have been evaluated. -/
def callBuiltin (g : Environment) (line : Nat) (b : Builtin) (args : List Value) : Run Value := do
  match b with
  | .send =>
    let text ← onLine line (stringArgument b.name args 1)
    send text
    return .null
  | .expect =>
    let wanted ← onLine line (stringArgument b.name args 1)
    let timeout ← onLine line (timeoutOf g.timeout args[1]?)
    return .record (← expect line wanted timeout)
  | .assert => assertTrue line args
  | .assertEq => assertEqual line true b.name args
  | .assertNe => assertEqual line false b.name args
  | .log =>
    note (Text.joinWith " " (args.map Value.text))
    return .null
  | .format =>
    let template ← onLine line (stringArgument b.name args 1)
    return .str (← onLine line (format template (args.drop 1)))
  | .int => onLine line ((argument b.name args 1).bind Value.toInt)
  | .str => return .str (← onLine line (argument b.name args 1)).text
  | .len => return .int (← onLine line ((argument b.name args 1).bind Value.length))
  | .line =>
    let tag ← onLine line (stringArgument b.name args 1)
    match g.tags.get? tag with
    | none => onLine line (.error (.noTag tag))
    | some n => return .int n
  | .fileName =>
    let path ← onLine line (stringArgument b.name args 1)
    match (Path.mk path).fileName with
    | none => onLine line (.error (.noFileName path))
    | some name => return .str name
  | .buildDelta =>
    let source ← onLine line (stringArgument b.name args 1)
    let target ← onLine line (stringArgument b.name args 2)
    return .str (← buildDelta g source target).text

def call (g : Environment) (line : Nat) (name : String) (args : List Value) : Run Value :=
  match Builtin.ofName? name with
  | none => onLine line (.error (.unknownFunction name))
  | some b => callBuiltin g line b args

def methodCall (line : Nat) (v : Value) (name : String) (args : List Value) : Run Value :=
  match Method.ofName? name with
  | none => onLine line (.error (.unknownMethod name))
  | some m => onLine line (m.apply v args)

/- Operands are evaluated from left to right.  The logical operators look at
their right side only if the left one does not decide. -/
mutual

def eval (g : Environment) : Expr → Run Value
  | .int _ n => return .int n
  | .str _ s => return .str s
  | .bool _ b => return .bool b
  | .null _ => return .null
  | .list _ items => do return .list (← evalAll g items)
  | .ident p name => lookup g p.line name
  | .unary p op operand => do
    let v ← eval g operand
    onLine p.line (op.apply v)
  | .binary _ .and left right => do
    let l ← eval g left
    if ← asCondition left.line l then
      let r ← eval g right
      return .bool (← asCondition right.line r)
    else return .bool false
  | .binary _ .or left right => do
    let l ← eval g left
    if ← asCondition left.line l then return .bool true
    else
      let r ← eval g right
      return .bool (← asCondition right.line r)
  | .binary p op left right => do
    let v ← eval g left
    let w ← eval g right
    onLine p.line (op.apply v w)
  | .field p object name => do
    let v ← eval g object
    onLine p.line (v.field name)
  | .index p object index => do
    let v ← eval g object
    let i ← eval g index
    onLine p.line (v.index i)
  | .call p name args => do
    let vs ← evalAll g args
    call g p.line name vs
  | .method p object name args => do
    let v ← eval g object
    let vs ← evalAll g args
    methodCall p.line v name vs

def evalAll (g : Environment) : List Expr → Run (List Value)
  | [] => return []
  | e :: es => do
    let v ← eval g e
    let vs ← evalAll g es
    return v :: vs

end

def evalCondition (g : Environment) (e : Expr) : Run Bool := do
  let v ← eval g e
  asCondition e.line v

def declare (name : String) (v : Value) : Run Unit := do setScopes ((← scopes).declare name v)

def assign (line : Nat) (name : String) (v : Value) : Run Unit := do
  match (← scopes).assign name v with
  | some changed => setScopes changed
  | none => onLine line (.error (.assignedUndeclared name))

/- Every `while` loop runs at most `fuel` times each time it is reached. -/
mutual

def exec (g : Environment) (fuel : Nat) : Stmt → Run Unit
  | .declare _ name value => do
    let v ← eval g value
    declare name v
  | .assign line name value => do
    let v ← eval g value
    assign line name v
  | .evaluate _ e => do
    let _ ← eval g e
  | .branch _ cond body other => do
    if ← evalCondition g cond then inScope [] (execAll g fuel body)
    else execOther g fuel other
  | .loop _ cond body =>
    whileTrue fuel (evalCondition g cond) (inScope [] (execAll g fuel body))
  | .each _ name items body => do
    let v ← eval g items
    let vs ← onLine items.line v.elements
    forEach (fun w => inScope [(name, w)] (execAll g fuel body)) vs
  | .block _ body => inScope [] (execAll g fuel body)
  | .checkpoint _ name body => checkpoint name (inScope [] (execAll g fuel body))

def execAll (g : Environment) (fuel : Nat) : List Stmt → Run Unit
  | [] => return ()
  | s :: ss => do
    exec g fuel s
    execAll g fuel ss

def execOther (g : Environment) (fuel : Nat) : Option Stmt → Run Unit
  | none => return ()
  | some s => exec g fuel s

end

/-- Run a script from its first statement. -/
def run (g : Environment) (fuel : Nat) (p : Program) : Run Unit :=
  inScope [] (execAll g fuel p.stmts)

end Script
end CheckScript
