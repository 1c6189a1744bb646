/-
Reading report scripts.
-/
import CheckScript.Outside.Shell.Program.Report.Token

namespace CheckScript
namespace Shell
namespace Report

/-- What is left to read, the line that was reached, and the number of parentheses
that are open.  No loop takes more steps than `bound`. -/
structure Reading where
  tokens : List Placed
  line : Nat
  depth : Nat
  bound : Nat

abbrev Parser := StateT Reading (Except Fault)

namespace Parser

/-! ## Tokens -/

def peek : Parser Token := do
  match (← get).tokens with
  | [] => return .endOfText
  | t :: _ => return t.token

def isSign (t : Token) (s : String) : Bool :=
  match t with
  | .sign r => r == s
  | _ => false

def isKeyword (t : Token) (k : String) : Bool :=
  match t with
  | .keyword r => r == k
  | _ => false

def drop : Parser Unit :=
  modify fun s => match s.tokens with
    | [] => s
    | t :: ts =>
      let depth := if isSign t.token "(" then s.depth + 1
        else if isSign t.token ")" then s.depth - 1 else s.depth
      { s with tokens := ts, line := t.line, depth }

def take : Parser Token := do
  let t ← peek
  drop
  return t

def fail {α : Type} (text : Bytes) : Parser α := do
  throw (.at (← get).line text)

/-- The fault of a token that is out of place. -/
def refuse {α : Type} : Parser α := do
  let isOpen := 0 < (← get).depth
  match (← get).tokens with
  | [] => throw (.at (← get).line "syntax error at or near end of line".toList)
  | t :: _ =>
    if isOpen && t.shown == ['\x7d'] then throw (.at t.line "missing ) near \x7d".toList)
    else if t.shown == [')'] then throw (.at t.line "extra ')'".toList)
    else throw (.at t.line ("syntax error at or near ".toList ++ t.shown))

def accept (s : String) : Parser Bool := do
  if isSign (← peek) s then
    drop
    return true
  else return false

def expect (s : String) : Parser Unit := do
  if ← accept s then return () else refuse

def skipLinesFor : Nat → Parser Unit
  | 0 => return ()
  | fuel + 1 => do
    match ← peek with
    | .newline =>
      drop
      skipLinesFor fuel
    | _ => return ()

def skipLines : Parser Unit := do skipLinesFor (← get).bound

def skipEndsFor : Nat → Parser Unit
  | 0 => return ()
  | fuel + 1 => do
    match ← peek with
    | .newline | .sign ";" =>
      drop
      skipEndsFor fuel
    | _ => return ()

/-- Skip newlines and semicolons. -/
def skipEnds : Parser Unit := do skipEndsFor (← get).bound

def name : Parser Bytes := do
  match ← peek with
  | .name b _ =>
    drop
    return b
  | _ => refuse

/-! ## Expressions -/

/-- What an expression stands in: the head of a loop, where `in` has a meaning of its
own, or output, where `>` has one. -/
structure Surroundings where
  inHead : Bool
  inOutput : Bool

/-- What the parts of expressions and statements are read with. -/
structure Parts where
  expr : Surroundings → Parser Expr
  unary : Surroundings → Parser Expr
  stmt : Parser Stmt

/-- Operands joined from the left. -/
def chain (part : Parser Expr) (join : Token → Option (Expr → Expr → Expr)) (overLines : Bool) :
    Nat → Expr → Parser Expr
  | 0, e => return e
  | fuel + 1, e => do
    match join (← peek) with
    | none => return e
    | some f =>
      drop
      if overLines then skipLines
      let r ← part
      chain part join overLines fuel (f e r)

def level (part : Parser Expr) (join : Token → Option (Expr → Expr → Expr)) : Parser Expr := do
  let first ← part
  chain part join false (← get).bound first

def exprsFor (part : Parser Expr) (read : List Expr) : Nat → Parser (List Expr)
  | 0 => return read.reverse
  | fuel + 1 => do
    let e ← part
    if ← accept "," then
      skipLines
      exprsFor part (e :: read) fuel
    else return (e :: read).reverse

/-- Expressions with commas between them. -/
def exprs (part : Parser Expr) : Parser (List Expr) := do exprsFor part [] (← get).bound

namespace Parts

/-- An expression between signs that close it in. -/
def inner (p : Parts) : Parser Expr := p.expr ⟨false, false⟩

def arguments (p : Parts) : Parser (List Expr) := do
  if ← accept ")" then return []
  else
    let es ← exprs p.inner
    expect ")"
    return es

/-- A place, which must come next. -/
def placeOf : Expr → Parser Place
  | .place p => return p
  | _ => refuse

/-- The place that begins with a name. -/
def named (p : Parts) (n : Bytes) : Parser Place := do
  if ← accept "[" then
    let keys ← exprs p.inner
    expect "]"
    return .element n keys
  else return .variable n

def grouped (p : Parts) : Parser Expr := do
  let es ← exprs p.inner
  expect ")"
  match es with
  | [e] => return .group e
  | es =>
    if isKeyword (← peek) "in" then
      drop
      return .member es (← name)
    else return .list es

/-- Operands without signs before them. -/
def simple (p : Parts) (dollar : Parser Expr) : Parser Expr := do
  match ← peek with
  | .number x => drop; return .number x
  | .text b => drop; return .text b
  | .regex r => drop; return .regex r
  | .name n true =>
    drop
    drop
    return .call n (← p.arguments)
  | .name n false => drop; return .place (← p.named n)
  | .function f least most =>
    drop
    let args ← if ← accept "(" then p.arguments else
      if f = .length then pure [] else refuse
    if args.length < least ∨ most < args.length then
      fail ("wrong number of arguments in call to ".toList ++
        (((functions.find? fun g => g.2.1 = f).map (·.1)).getD "").toList)
    else return .apply f args
  | .sign "(" => drop; p.grouped
  | .sign "$" => drop; return .place (.field (← dollar))
  | _ => refuse

/-- The index of a field binds closer than anything else. -/
def dollar (p : Parts) : Nat → Parser Expr
  | 0 => refuse
  | fuel + 1 => do
    let step (up : Bool) : Parser Expr := do
      drop
      return .step (← placeOf (← p.simple (dollar p fuel))) up true
    match ← peek with
    | .sign "++" => step true
    | .sign "--" => step false
    | .sign "-" => drop; return .negative (← dollar p fuel)
    | .sign "+" => drop; return .positive (← dollar p fuel)
    | .sign "!" => drop; return .negation (← dollar p fuel)
    | _ => p.simple (dollar p fuel)

def operand (p : Parts) : Parser Expr := do p.simple (p.dollar (← get).bound)

/-- The place that a line may be read into. -/
def target (p : Parts) : Parser (Option Place) := do
  match ← peek with
  | .sign "$" | .name _ false => return some (← placeOf (← p.operand))
  | _ => return none

def nextLine (p : Parts) : Parser Expr := do
  let place ← p.target
  if ← accept "<" then return .nextLine place (some (← p.operand)) else return .nextLine place none

/-- An operand that may be stepped up or down. -/
def stepped (p : Parts) : Parser Expr := do
  match ← peek with
  | .keyword "getline" => drop; p.nextLine
  | .sign "++" => drop; return .step (← placeOf (← p.operand)) true true
  | .sign "--" => drop; return .step (← placeOf (← p.operand)) false true
  | _ =>
    match ← p.operand with
    | .place place =>
      if ← accept "++" then return .step place true false
      else if ← accept "--" then return .step place false false
      else return .place place
    | e => return e

/-- Powers bind closer than the signs before them. -/
def signed (p : Parts) (s : Surroundings) : Parser Expr := do
  match ← peek with
  | .sign "-" => drop; return .negative (← p.unary s)
  | .sign "+" => drop; return .positive (← p.unary s)
  | .sign "!" => drop; return .negation (← p.unary s)
  | _ =>
    let base ← p.stepped
    if ← accept "^" then return .arith .power base (← p.unary s) else return base

def product (p : Parts) (s : Surroundings) : Parser Expr :=
  level (p.signed s) fun
    | .sign "*" => some (.arith .multiply)
    | .sign "/" => some (.arith .divide)
    | .sign "%" => some (.arith .remainder)
    | _ => none

def sum (p : Parts) (s : Surroundings) : Parser Expr :=
  level (p.product s) fun
    | .sign "+" => some (.arith .add)
    | .sign "-" => some (.arith .subtract)
    | _ => none

/-- Whether a token begins an operand that is put behind another one. -/
def beginsOperand : Token → Bool
  | .number _ | .text _ | .regex _ | .function .. | .name .. => true
  | .sign s => ["(", "$", "!", "++", "--"].contains s
  | _ => false

def concatFor (part : Parser Expr) : Nat → Expr → Parser Expr
  | 0, e => return e
  | fuel + 1, e => do
    if beginsOperand (← peek) then
      let r ← part
      concatFor part fuel (.concat e r)
    else return e

def concat (p : Parts) (s : Surroundings) : Parser Expr := do
  let first ← p.sum s
  concatFor (p.sum s) (← get).bound first

def comparisonOf (s : Surroundings) : Token → Option Comparison
  | .sign "<" => some ⟨true, false, false⟩
  | .sign "<=" => some ⟨true, true, false⟩
  | .sign "==" => some ⟨false, true, false⟩
  | .sign "!=" => some ⟨true, false, true⟩
  | .sign ">" => if s.inOutput then none else some ⟨false, false, true⟩
  | .sign ">=" => some ⟨false, true, true⟩
  | _ => none

/-- Whether lines of a command are read next. -/
def readsCommand : Parser Bool := do
  match (← get).tokens with
  | a :: b :: _ => return isSign a.token "|" && isKeyword b.token "getline"
  | _ => return false

def commandLinesFor (p : Parts) : Nat → Expr → Parser Expr
  | 0, e => return e
  | fuel + 1, e => do
    if ← readsCommand then
      drop
      drop
      commandLinesFor p fuel (.commandLine e (← p.target))
    else return e

def comparison (p : Parts) (s : Surroundings) : Parser Expr := do
  let part : Parser Expr := do
    let e ← p.concat s
    commandLinesFor p (← get).bound e
  level part fun t => (comparisonOf s t).map .compare

def fitting (p : Parts) (s : Surroundings) : Parser Expr :=
  level (p.comparison s) fun
    | .sign "~" => some (.fits true)
    | .sign "!~" => some (.fits false)
    | _ => none

def membersFor (s : Surroundings) : Nat → Expr → Parser Expr
  | 0, e => return e
  | fuel + 1, e => do
    if !s.inHead && isKeyword (← peek) "in" then
      drop
      membersFor s fuel (.member [e] (← name))
    else return e

def membership (p : Parts) (s : Surroundings) : Parser Expr := do
  let e ← p.fitting s
  membersFor s (← get).bound e

def overLines (part : Parser Expr) (sign : String) (join : Expr → Expr → Expr) :
    Parser Expr := do
  let first ← part
  chain part (fun t => if isSign t sign then some join else none) true (← get).bound first

def conditional (p : Parts) (s : Surroundings) : Parser Expr := do
  let condition ← overLines (overLines (p.membership s) "&&" .conjunction) "||" .disjunction
  if ← accept "?" then
    skipLines
    let yes ← p.expr s
    skipLines
    expect ":"
    skipLines
    return .conditional condition yes (← p.expr s)
  else return condition

def assignmentOf : Token → Option (Option Arith)
  | .sign "=" => some none
  | .sign "+=" => some (some .add)
  | .sign "-=" => some (some .subtract)
  | .sign "*=" => some (some .multiply)
  | .sign "/=" => some (some .divide)
  | .sign "%=" => some (some .remainder)
  | .sign "^=" => some (some .power)
  | _ => none

/-- Put an assignment behind the operand that stands last in an expression. -/
def assigning (operator : Option Arith) (value : Expr) : Expr → Option Expr
  | .place p => some (.assign p operator value)
  | .negation e => (assigning operator value e).map .negation
  | .negative e => (assigning operator value e).map .negative
  | .compare c l r => (assigning operator value r).map (.compare c l)
  | .fits w l r => (assigning operator value r).map (.fits w l)
  | .conjunction l r => (assigning operator value r).map (.conjunction l)
  | .disjunction l r => (assigning operator value r).map (.disjunction l)
  | .concat l r => (assigning operator value r).map (.concat l)
  | _ => none

def whole (p : Parts) (s : Surroundings) : Parser Expr := do
  let e ← p.conditional s
  match assignmentOf (← peek) with
  | none => return e
  | some operator =>
    match assigning operator (.text []) e with
    | none => refuse
    | some _ =>
      drop
      skipLines
      let value ← p.expr s
      match assigning operator value e with
      | some e => return e
      | none => refuse

/-! ## Statements -/

/-- The end of a statement, which a brace behind it is too. -/
def ended : Parser Unit := do
  match ← peek with
  | .newline | .sign ";" => drop
  | .sign "\x7d" => return ()
  | .endOfText => return ()
  | _ => refuse

def startsNothing (t : Token) : Bool :=
  match t with
  | .newline | .endOfText => true
  | .sign s => [";", "\x7d", ">", ">>", "|"].contains s
  | _ => false

def outlet (p : Parts) : Parser Outlet := do
  let operand : Parser Expr := p.concat ⟨false, true⟩
  if ← accept ">" then return .file (← operand) false
  else if ← accept ">>" then return .file (← operand) true
  else if ← accept "|" then return .command (← operand)
  else return .standard

/-- What is to be printed. -/
def values (p : Parts) : Parser (List Expr) := do
  if startsNothing (← peek) then return []
  else
    match ← exprs (p.expr ⟨false, true⟩) with
    | [.list es] => return es
    | es => return es

def optional (p : Parts) : Parser (Option Expr) := do
  if startsNothing (← peek) then return none else return some (← p.inner)

def deletion (p : Parts) : Parser Stmt := do
  match ← p.named (← name) with
  | .variable n => return .delete n none
  | .element n keys => return .delete n (some keys)
  | .field _ => refuse

/-- Statements that stand on a line of their own. -/
def plain (p : Parts) : Parser Stmt := do
  match ← peek with
  | .keyword "print" =>
    drop
    let es ← p.values
    return .print es (← p.outlet)
  | .keyword "printf" =>
    drop
    let es ← p.values
    if es.isEmpty then fail "no arguments in call to printf".toList
    else return .printFormat es (← p.outlet)
  | .keyword "next" => drop; return .next
  | .keyword "nextfile" => drop; return .nextSource
  | .keyword "break" => drop; return .leave
  | .keyword "continue" => drop; return .goOn
  | .keyword "exit" => drop; return .exit (← p.optional)
  | .keyword "return" => drop; return .answer (← p.optional)
  | .keyword "delete" => drop; p.deletion
  | _ => return .expr (← p.inner)

def blockFor (p : Parts) (sofar : Stmt) : Nat → Parser Stmt
  | 0 => refuse
  | fuel + 1 => do
    match ← peek with
    | .sign "\x7d" =>
      drop
      return sofar
    | .newline =>
      drop
      blockFor p sofar fuel
    | .endOfText =>
      throw (.at ((← get).line + 1) "missing \x7d near end of file".toList)
    | _ =>
      let s ← p.stmt
      blockFor p (.block sofar s) fuel

/-- Statements up to a closing brace. -/
def block (p : Parts) : Parser Stmt := do p.blockFor .nothing (← get).bound

def condition (p : Parts) : Parser Expr := do
  expect "("
  let e ← p.inner
  expect ")"
  return e

/-- The body of a loop or branch, which may stand on the next line. -/
def body (p : Parts) : Parser Stmt := do
  skipLines
  p.stmt

/-- The other side of a branch may stand behind ends of statements. -/
def otherwise (p : Parts) : Parser Stmt := do
  let before ← get
  skipEnds
  if isKeyword (← peek) "else" then
    drop
    p.body
  else
    set before
    return .nothing

/-- The head of a loop over the keys of an array, if that comes next. -/
def eachHead? : Parser (Option (Bytes × Bytes)) := do
  match (← get).tokens with
  | a :: b :: c :: d :: _ =>
    match a.token, b.token, c.token, d.token with
    | .name n false, .keyword "in", .name array _, .sign ")" =>
      drop; drop; drop; drop
      return some (n, array)
    | _, _, _, _ => return none
  | _ => return none

def partOfHead (p : Parts) (mark : String) : Parser Stmt := do
  if ← accept mark then return .nothing
  else
    let s ← p.plain
    expect mark
    return s

def counted (p : Parts) : Parser Stmt := do
  expect "("
  match ← eachHead? with
  | some (n, array) => return .each n array (← p.body)
  | none =>
    let first ← p.partOfHead ";"
    skipLines
    let condition ← if ← accept ";" then pure (.number 1) else do
      let e ← p.inner
      expect ";"
      pure e
    skipLines
    let step ← p.partOfHead ")"
    if ← accept ";" then return .block first (.loop condition step .nothing)
    else return .block first (.loop condition step (← p.body))

def looped (p : Parts) : Parser Stmt := do
  let condition ← p.condition
  if ← accept ";" then return .loop condition .nothing .nothing
  else return .loop condition .nothing (← p.body)

def loopedBehind (p : Parts) : Parser Stmt := do
  let body ← p.body
  skipEnds
  if isKeyword (← peek) "while" then
    drop
    let condition ← p.condition
    ended
    return .loopBehind body condition
  else refuse

def statement (p : Parts) : Parser Stmt := do
  match ← peek with
  | .sign "\x7b" => drop; p.block
  | .sign ";" => drop; return .nothing
  | .keyword "if" =>
    drop
    let condition ← p.condition
    let yes ← p.body
    return .branch condition yes (← p.otherwise)
  | .keyword "while" => drop; p.looped
  | .keyword "do" => drop; p.loopedBehind
  | .keyword "for" => drop; p.counted
  | _ =>
    let s ← p.plain
    ended
    return s

end Parts

/-- The parts of scripts that are nested no deeper than the fuel. -/
def parts : Nat → Parts
  | 0 => { expr := fun _ => refuse, unary := fun _ => refuse, stmt := refuse }
  | fuel + 1 =>
    { expr := fun s r => (parts fuel).whole s r
      unary := fun s r => (parts fuel).signed s r
      stmt := fun r => (parts fuel).statement r }

/-! ## Scripts -/

/-- An action, which stands in braces. -/
def action (p : Parts) : Parser Stmt := do
  if ← accept "\x7b" then p.block else refuse

def parametersFor (read : List Bytes) : Nat → Parser (List Bytes)
  | 0 => refuse
  | fuel + 1 => do
    let n ← name
    if ← accept "," then
      skipLines
      parametersFor (n :: read) fuel
    else
      expect ")"
      return (n :: read).reverse

def definition (p : Parts) : Parser Definition := do
  let n ← name
  expect "("
  let parameters ← if ← accept ")" then pure [] else parametersFor [] (← get).bound
  skipLines
  return ⟨n, parameters, ← action p⟩

def pattern (p : Parts) : Parser Rule := do
  let first ← p.inner
  let trigger ← if ← accept "," then do
      skipLines
      pure (.range first (← p.inner))
    else pure (.when first)
  if ← accept "\x7b" then return ⟨trigger, ← p.block⟩ else return ⟨trigger, .print [] .standard⟩

def script (p : Parts) (read : Script) : Nat → Parser Script
  | 0 => return read
  | fuel + 1 => do
    skipEnds
    let goOn (r : Rule) : Parser Script := script p { read with rules := r :: read.rules } fuel
    match ← peek with
    | .endOfText => return { read with rules := read.rules.reverse }
    | .keyword "BEGIN" => drop; goOn ⟨.start, ← action p⟩
    | .keyword "END" => drop; goOn ⟨.stop, ← action p⟩
    | .keyword "function" =>
      drop
      let d ← definition p
      script p { read with definitions := d :: read.definitions } fuel
    | .sign "\x7b" => drop; goOn ⟨.always, ← p.block⟩
    | .sign "\x7d" => fail "extra '\x7d'".toList
    | _ => goOn (← pattern p)

end Parser

/-- Read a script.  Every function that it calls must be defined somewhere in it. -/
def read (text : Bytes) : Except Fault Script := do
  let ts ← tokens text
  let bound := ts.length + 1
  let r ← (Parser.script (Parser.parts (bound + 1)) ⟨[], []⟩ bound).run ⟨ts, 1, 0, bound⟩
  let called := ts.filterMap fun t => match t.token with
    | .name n true => some n
    | _ => none
  match called.find? fun n => !r.1.definitions.any fun d => d.name == n with
  | some n =>
    .error (.at (text.count '\n' + 2) ("function ".toList ++ n ++ " never defined".toList))
  | none => .ok r.1

end Report
end Shell
end CheckScript
