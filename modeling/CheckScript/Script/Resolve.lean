/-
Names and calls of a script, checked without running it.
-/
import CheckScript.Script.Builtin
import CheckScript.Script.Syntax

namespace CheckScript
namespace Script

/-- The names declared in each open block, the innermost first. -/
abbrev Names := List (List String)

namespace Names

def declares (names : Names) (name : String) : Bool := names.any fun block => block.contains name

def declare (names : Names) (name : String) : Names :=
  match names with
  | [] => []
  | block :: outer => (name :: block) :: outer

end Names

def problemOfName (names : Names) (name : String) : Option Problem :=
  if names.declares name || Global.isName name then none
  else if (Builtin.ofName? name).isSome then some (.notCalled name)
  else some (.undeclared name)

def problemOfCall (name : String) (given : Nat) : Option Problem :=
  match Builtin.ofName? name with
  | none => some (.unknownFunction name)
  | some b => if b.arity.accepts given then none else some (.functionArity name b.arity given)

def problemOfMethod (name : String) (given : Nat) : Option Problem :=
  match Method.ofName? name with
  | none => some (.unknownMethod name)
  | some m => if m.arity.accepts given then none else some (.methodArity name m.arity given)

def at? (p : Position) (problem : Option Problem) : List Diagnostic :=
  (problem.map fun q => ⟨p, q⟩).toList

/- A call is judged before its arguments, a method behind its object. -/
mutual

def checkExpr (names : Names) : Expr → List Diagnostic
  | .int _ _ | .str _ _ | .bool _ _ | .null _ => []
  | .list _ items => checkExprs names items
  | .ident p name => at? p (problemOfName names name)
  | .unary _ _ operand => checkExpr names operand
  | .binary _ _ left right => checkExpr names left ++ checkExpr names right
  | .field _ object _ => checkExpr names object
  | .index _ object index => checkExpr names object ++ checkExpr names index
  | .call p name args => at? p (problemOfCall name args.length) ++ checkExprs names args
  | .method p object name args =>
    checkExpr names object ++ at? p (problemOfMethod name args.length) ++ checkExprs names args

def checkExprs (names : Names) : List Expr → List Diagnostic
  | [] => []
  | e :: es => checkExpr names e ++ checkExprs names es

end

def problemOfDeclaration (name : String) : Option Problem :=
  if Global.isName name then some (.redeclaredGlobal name) else none

def problemOfAssignment (names : Names) (name : String) : Option Problem :=
  if Global.isName name then some (.assignedGlobal name)
  else if names.declares name then none
  else some (.assignedUndeclared name)

/-- The names behind a declaration. -/
def declared (names : Names) (name : String) : Names :=
  if Global.isName name then names else names.declare name

/- Problems with a statement, and the names known behind it.  Problems with a
name that a statement declares or assigns stand at the start of its line. -/
mutual

def checkStmt (names : Names) : Stmt → List Diagnostic × Names
  | .declare line name value =>
    (checkExpr names value ++ at? ⟨line, 1⟩ (problemOfDeclaration name), declared names name)
  | .assign line name value =>
    (checkExpr names value ++ at? ⟨line, 1⟩ (problemOfAssignment names name), names)
  | .evaluate _ e => (checkExpr names e, names)
  | .branch _ cond body other =>
    (checkExpr names cond ++ checkStmts ([] :: names) body ++ checkOther names other, names)
  | .loop _ cond body => (checkExpr names cond ++ checkStmts ([] :: names) body, names)
  | .each line name items body =>
    (checkExpr names items ++ at? ⟨line, 1⟩ (problemOfDeclaration name) ++
      checkStmts ([name] :: names) body, names)
  | .block _ body | .checkpoint _ _ body => (checkStmts ([] :: names) body, names)

def checkStmts (names : Names) : List Stmt → List Diagnostic
  | [] => []
  | s :: ss =>
    let r := checkStmt names s
    r.1 ++ checkStmts r.2 ss

def checkOther (names : Names) : Option Stmt → List Diagnostic
  | none => []
  | some s => (checkStmt names s).1

end

def resolve (p : Program) : List Diagnostic := checkStmts [[]] p.stmts

end Script
end CheckScript
