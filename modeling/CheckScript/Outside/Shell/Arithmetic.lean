/-
Arithmetic on whole numbers of 64 bits, which wrap around.
-/
import CheckScript.Outside.Shell.Syntax

namespace CheckScript
namespace Shell
namespace Arithmetic

inductive Expr where
  | number (n : Int)
  | parameter (name : Bytes)
  | unary (op : Char) (e : Expr)
  | binary (op : String) (a b : Expr)
  | both (a b : Expr)
  | either (a b : Expr)
  | choose (c a b : Expr)
  | assign (name : Bytes) (op : String) (e : Expr)

inductive Fault where
  | expecting (what : String)
  | division
  | illegal (text : Bytes)
deriving DecidableEq, Repr

/-! ## Numbers -/

def wrap (n : Int) : Int := Int.bmod n (Nat.pow 2 64)

def digitValue (c : Char) : Nat :=
  if isDigit c then c.toNat - 48
  else if 'a' ≤ c ∧ c ≤ 'z' then c.toNat - 87
  else if 'A' ≤ c ∧ c ≤ 'Z' then c.toNat - 55
  else 99

/-- The digits at the front of a text, as a number, and what follows them. -/
def digits (base : Nat) (cs : Bytes) : Nat × Bytes :=
  let ds := cs.takeWhile fun c => digitValue c < base
  (ds.foldl (fun n c => base * n + digitValue c) 0, cs.drop ds.length)

/-- A number whose first signs tell its base, and what follows it. -/
def readNumber : Bytes → Nat × Bytes
  | '0' :: 'x' :: c :: cs | '0' :: 'X' :: c :: cs =>
    if digitValue c < 16 then digits 16 (c :: cs) else (0, 'x' :: c :: cs)
  | '0' :: cs => digits 8 cs
  | cs => digits 10 cs

def isBlank (c : Char) : Bool := c == ' ' || ('\t' ≤ c && c ≤ '\r')

/-- The sign and the number at the front of a text, if a digit is there, and
what follows them. -/
def signedNumber? (cs : Bytes) : Option (Int × Bytes) :=
  let signed (negative : Bool) (cs : Bytes) : Option (Int × Bytes) :=
    match cs with
    | [] => none
    | c :: _ =>
      if isDigit c then
        let r := readNumber cs
        some (if negative then -(r.1 : Int) else r.1, r.2)
      else none
  match cs.dropWhile isBlank with
  | '-' :: cs => signed true cs
  | '+' :: cs => signed false cs
  | cs => signed false cs

def fits (n : Int) : Bool := -(Nat.pow 2 63 : Int) ≤ n && n < Nat.pow 2 63

/-- The number that the value of a variable is; a blank value is zero. -/
def valueOf (text : Bytes) : Except Fault Int :=
  match signedNumber? text with
  | some (n, rest) => if rest.all isBlank ∧ fits n then .ok n else .error (.illegal text)
  | none => if text.all isBlank then .ok 0 else .error (.illegal text)

/-! ## Reading -/

inductive Sign where
  | number (n : Int)
  | name (b : Bytes)
  | op (s : String)
deriving DecidableEq, Repr

/-- The signs of expressions, the longer before those they begin with. -/
def operators : List String :=
  ["<<=", ">>=", "||", "&&", "==", "!=", "<=", ">=", "<<", ">>", "*=", "/=", "%=", "+=", "-=",
    "&=", "^=", "|=", "|", "^", "&", "<", ">", "+", "-", "*", "/", "%", "!", "~", "(", ")", "?",
    ":", "="]

/-- The signs of a text.  What cannot be read is a sign of no meaning. -/
def signs (fuel : Nat) (cs : Bytes) : List Sign :=
  match fuel, cs with
  | 0, _ | _, [] => []
  | fuel + 1, c :: rest =>
    if isBlank c then signs fuel rest
    else if isDigit c then
      let r := readNumber (c :: rest)
      .number (min (r.1 : Int) ((Nat.pow 2 63 : Int) - 1)) :: signs fuel r.2
    else if isNameStart c then
      let name := (c :: rest).takeWhile isNameChar
      .name name :: signs fuel ((c :: rest).drop name.length)
    else
      match operators.find? fun o => o.toList.isPrefixOf (c :: rest) with
      | some o => .op o :: signs fuel ((c :: rest).drop o.length)
      | none => [.op ""]

abbrev Parser := StateT (List Sign) (Except Fault)

def accept (ops : List String) : Parser (Option String) := do
  match ← get with
  | .op o :: rest =>
    if ops.contains o then
      set rest
      return some o
    else return none
  | _ => return none

/-- Binary operators from the weakest to the strongest. -/
def levels : List (List String) :=
  [["|"], ["^"], ["&"], ["==", "!="], ["<=", ">=", "<", ">"], ["<<", ">>"], ["+", "-"],
    ["*", "/", "%"]]

def assignments : List String :=
  ["=", "*=", "/=", "%=", "+=", "-=", "<<=", ">>=", "&=", "^=", "|="]

def primary (whole : Parser Expr) : Nat → Parser Expr
  | 0 => throw (.expecting "primary")
  | fuel + 1 => do
    match ← get with
    | .number n :: rest => set rest; return .number n
    | .name b :: rest => set rest; return .parameter b
    | .op "(" :: rest =>
      set rest
      let e ← whole
      match ← accept [")"] with
      | some _ => return e
      | none => throw (.expecting "')'")
    | .op o :: rest =>
      match o with
      | "+" | "-" | "!" | "~" => set rest; return .unary o.front (← primary whole fuel)
      | _ => throw (.expecting "primary")
    | [] => throw (.expecting "primary")

/-- Operands joined by operators of one strength, from the left. -/
def chain (operand : Parser Expr) (ops : List String) (a : Expr) : Nat → Parser Expr
  | 0 => return a
  | fuel + 1 => do
    match ← accept ops with
    | none => return a
    | some o =>
      let b ← operand
      chain operand ops (.binary o a b) fuel

def binary (whole : Parser Expr) (fuel : Nat) : List (List String) → Parser Expr
  | [] => primary whole fuel
  | ops :: stronger => do
    let a ← binary whole fuel stronger
    chain (binary whole fuel stronger) ops a fuel

/-- Conditions joined by one of the two connectives, from the right. -/
def connected (operand : Parser Expr) (op : String) (join : Expr → Expr → Expr) :
    Nat → Parser Expr
  | 0 => operand
  | fuel + 1 => do
    let a ← operand
    match ← accept [op] with
    | none => return a
    | some _ => return join a (← connected operand op join fuel)

def expression : Nat → Parser Expr
  | 0 => throw (.expecting "primary")
  | fuel + 1 => do
    match ← get with
    | .name b :: .op o :: rest =>
      if assignments.contains o then
        set rest
        return .assign b (String.ofList o.toList.dropLast) (← expression fuel)
    | _ => pure ()
    let conjunction := connected (binary (expression fuel) fuel levels) "&&" .both fuel
    let c ← connected conjunction "||" .either fuel
    match ← accept ["?"] with
    | none => return c
    | some _ =>
      let a ← expression fuel
      match ← accept [":"] with
      | none => throw (.expecting "':'")
      | some _ => return .choose c a (← expression fuel)

/-- The expression that a text is. -/
def read (cs : Bytes) : Except Fault Expr :=
  let fuel := cs.length + 2
  match (expression fuel).run (signs fuel cs) with
  | .error fault => .error fault
  | .ok (e, []) => .ok e
  | .ok _ => .error (.expecting "EOF")

/-! ## Values -/

def truth (b : Bool) : Int := if b then 1 else 0

/-- The bits of a number, and the number that some bits are. -/
def bits (n : Int) : Nat := (n % Nat.pow 2 64).toNat

def ofBits (n : Nat) : Int := wrap n

def apply (op : String) (a b : Int) : Except Fault Int :=
  match op with
  | "+" => .ok (wrap (a + b))
  | "-" => .ok (wrap (a - b))
  | "*" => .ok (wrap (a * b))
  | "/" => if b = 0 then .error .division else .ok (wrap (a.tdiv b))
  | "%" => if b = 0 then .error .division else .ok (wrap (a.tmod b))
  | "<<" => .ok (wrap (a * Nat.pow 2 (bits b % 64)))
  | ">>" => .ok (a.fdiv (Nat.pow 2 (bits b % 64)))
  | "&" => .ok (ofBits (bits a &&& bits b))
  | "|" => .ok (ofBits (bits a ||| bits b))
  | "^" => .ok (ofBits (bits a ^^^ bits b))
  | "==" => .ok (truth (a == b))
  | "!=" => .ok (truth (a != b))
  | "<" => .ok (truth (a < b))
  | "<=" => .ok (truth (a ≤ b))
  | ">" => .ok (truth (b < a))
  | ">=" => .ok (truth (b ≤ a))
  | _ => .ok b

def negate (op : Char) (a : Int) : Int :=
  match op with
  | '-' => wrap (-a)
  | '!' => truth (a == 0)
  | '~' => wrap (-a - 1)
  | _ => a

/-- The values that have been assigned, the latest first. -/
abbrev Evaluation := StateT (List (Bytes × Int)) (Except Fault)

def lookup (value : Bytes → Option Bytes) (name : Bytes) : Evaluation Int := do
  match (← get).find? fun v => v.1 == name with
  | some v => return v.2
  | none =>
    match valueOf ((value name).getD []) with
    | .ok n => return n
    | .error fault => throw fault

def evaluate (value : Bytes → Option Bytes) : Expr → Evaluation Int
  | .number n => return n
  | .parameter name => lookup value name
  | .unary op e => do return negate op (← evaluate value e)
  | .binary op a b => do
    let m ← evaluate value a
    let n ← evaluate value b
    apply op m n
  | .both a b => do
    if (← evaluate value a) = 0 then return 0
    else return truth ((← evaluate value b) != 0)
  | .either a b => do
    if (← evaluate value a) ≠ 0 then return 1
    else return truth ((← evaluate value b) != 0)
  | .choose c a b => do
    if (← evaluate value c) ≠ 0 then evaluate value a else evaluate value b
  | .assign name op e => do
    let n ← evaluate value e
    let old ← if op.isEmpty then pure 0 else lookup value name
    let new ← apply op old n
    modify ((name, new) :: ·)
    return new

/-- The value of a text, and what it assigns, the latest first. -/
def value (lookup : Bytes → Option Bytes) (cs : Bytes) :
    Except Fault (Int × List (Bytes × Int)) := do
  let e ← read cs
  (evaluate lookup e).run []

/-- A fault as messages show it. -/
def message (text : Bytes) : Fault → Bytes
  | .expecting what =>
    s!"arithmetic expression: expecting {what}: \"".toList ++ text ++ ['"']
  | .division => "arithmetic expression: division by zero: \"".toList ++ text ++ ['"']
  | .illegal value => "Illegal number: ".toList ++ value

end Arithmetic
end Shell
end CheckScript
