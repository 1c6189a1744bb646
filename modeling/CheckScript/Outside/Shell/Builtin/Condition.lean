/-
Conditions on texts, numbers and files.
-/
import CheckScript.Files.Tree
import CheckScript.Outside.Shell.Arithmetic

namespace CheckScript
namespace Shell
namespace Condition

inductive Operator where
  | unary (letter : Char)
  | binary (text : String)
  | negation
  | conjunction
  | disjunction
  | opening
  | closing
deriving DecidableEq, Repr

def unaryLetters : String := "rwxefdcbpugkstznhOGLS"

def binaryOperators : List String :=
  ["=", "!=", "<", ">", "-eq", "-ne", "-ge", "-gt", "-le", "-lt", "-nt", "-ot", "-ef"]

def operator? (b : Bytes) : Option Operator :=
  match b with
  | ['!'] => some .negation
  | ['('] => some .opening
  | [')'] => some .closing
  | ['-', 'a'] => some .conjunction
  | ['-', 'o'] => some .disjunction
  | b =>
    match binaryOperators.find? fun o => o.toList == b with
    | some o => some (.binary o)
    | none =>
      match b with
      | ['-', c] => if unaryLetters.toList.contains c then some (.unary c) else none
      | _ => none

def isBinary (b : Bytes) : Bool :=
  match operator? b with
  | some (.binary _) => true
  | _ => false

/-- What the first of some words is: nothing, an operand, or an operator.  An operator
on one operand is itself an operand if none follows, or if the word behind it
compares it with another. -/
inductive Token where
  | stop
  | operand
  | operator (o : Operator)
deriving DecidableEq, Repr

def isOperandHere : List Bytes → Bool
  | [] => true
  | [_] => false
  | next :: _ :: _ => isBinary next

def token : List Bytes → Token
  | [] => .stop
  | w :: ws =>
    match operator? w with
    | some (.unary c) => if isOperandHere ws then .operand else .operator (.unary c)
    | some .opening => if ws.isEmpty then .operand else .operator .opening
    | some o => .operator o
    | none => .operand

/-- What is not there, and what it is that can be read and run. -/
structure Surroundings where
  files : Files
  isDevice : Bytes → Bool
  isRunnable : Bytes → Bool

def tests (s : Surroundings) (letter : Char) (name : Bytes) : Bool :=
  let path : Path := ⟨Bytes.text name⟩
  let node := (s.files.find path).toOption
  let isDirectory := (node.map FileNode.isDirectory).getD false
  let device := s.isDevice name
  match letter with
  | 'z' => name.isEmpty
  | 'n' => !name.isEmpty
  | 'e' | 'r' | 'w' | 'O' | 'G' => node.isSome || device || s.isRunnable name
  | 'x' => isDirectory || s.isRunnable name
  | 'f' => (node.isSome && !isDirectory) || (node.isNone && s.isRunnable name)
  | 'd' => isDirectory
  | 'c' => device
  | 's' =>
    match node with
    | some (.file bytes) => 0 < bytes.size
    | some (.directory _) => true
    | none => s.isRunnable name
  | _ => false

abbrev Reading := StateT (List Bytes) (Except Bytes)

def refuse {α : Type} (operator : Bytes) (text : String) : Reading α :=
  throw (if operator.isEmpty then text.toList else operator ++ ": ".toList ++ text.toList)

def number (b : Bytes) : Reading Int := do
  let illegal : Reading Int := refuse "Illegal number".toList (String.ofList b)
  let cs := b.dropWhile Arithmetic.isBlank
  let isNegative := cs.head? = some '-'
  let digits := if isNegative || cs.head? = some '+' then cs.drop 1 else cs
  let front := digits.takeWhile isDigit
  if front.isEmpty || !(digits.drop front.length).all Arithmetic.isBlank then illegal
  else
    let n : Int := front.foldl (fun n c => 10 * n + (c.toNat - 48)) (0 : Nat)
    let n := if isNegative then -n else n
    if Arithmetic.fits n then return n else illegal

def compare (s : Surroundings) (op : String) (a b : Bytes) : Reading Bool := do
  let place (b : Bytes) : Option (List String) :=
    match s.files.locate ⟨Bytes.text b⟩ with
    | .ok place => if (s.files.get? place).isSome then some place else none
    | .error _ => none
  match op with
  | "=" => return a == b
  | "!=" => return a != b
  | "<" => return a < b
  | ">" => return b < a
  | "-ef" => return (place a).isSome && place a == place b
  | "-nt" | "-ot" => return false
  | op =>
    let m ← number a
    let n ← number b
    match op with
    | "-eq" => return m == n
    | "-ne" => return m != n
    | "-ge" => return n ≤ m
    | "-gt" => return n < m
    | "-le" => return m ≤ n
    | _ => return m < n

/-- Leave some words behind. -/
def skip (n : Nat) : Reading Unit := modify (List.drop n)

mutual

/-- Whether one of some conditions holds.  All are looked at, also when one has
been found. -/
def either (s : Surroundings) : Nat → Token → Reading Bool
  | 0, _ => return false
  | fuel + 1, t => do
    let a ← both s fuel t
    if token ((← get).drop 1) = .operator .disjunction then
      skip 2
      let b ← either s fuel (token (← get))
      return a || b
    else return a

def both (s : Surroundings) : Nat → Token → Reading Bool
  | 0, _ => return false
  | fuel + 1, t => do
    let a ← negated s fuel t
    if token ((← get).drop 1) = .operator .conjunction then
      skip 2
      let b ← both s fuel (token (← get))
      return a && b
    else return a

def negated (s : Surroundings) : Nat → Token → Reading Bool
  | 0, _ => return false
  | fuel + 1, t => do
    if t = .operator .negation then
      let next := token ((← get).drop 1)
      if next ≠ .stop then skip 1
      return !(← negated s fuel next)
    else primary s fuel t

def primary (s : Surroundings) : Nat → Token → Reading Bool
  | 0, _ => return false
  | _ + 1, .stop => return false
  | fuel + 1, .operator .opening => do
    skip 1
    let inner := token (← get)
    if inner = .operator .closing then return false
    else
      let holds ← either s fuel inner
      skip 1
      if token (← get) = .operator .closing then return holds
      else refuse [] "closing paren expected"
  | _ + 1, t => do
    match t, ← get with
    | .operator (.unary c), _ :: name :: _ =>
      skip 1
      return tests s c name
    | _, words =>
      match token (words.drop 1), words with
      | .operator (.binary op), a :: _ :: b :: _ => do
        skip 2
        compare s op a b
      | .operator (.binary _), _ :: o :: _ => refuse o "argument expected"
      | _, w :: _ => return !w.isEmpty
      | _, [] => return false

end

/-- Whether the words as a whole hold.  `wanted` is false behind an exclamation
mark. -/
def whole (s : Surroundings) (wanted : Bool) : Nat → Token → List Bytes → Except Bytes Bool
  | fuel, t, words => do
    let (holds, rest) ← (either s fuel t).run words
    match rest with
    | w :: _ :: _ => (refuse w "unexpected operator" : Reading Bool).run [] |>.map (·.1)
    | _ => return holds == wanted

/-- Whether words hold, by their number first. -/
def holds (s : Surroundings) (wanted : Bool) (words : List Bytes) : Nat → Except Bytes Bool
  | 0 => .ok false
  | fuel + 1 =>
    let size := 4 * words.length + 8
    let plain : Except Bytes Bool := whole s wanted size (token words) words
    let shortened : Except Bytes Bool :=
      match words with
      | ['('] :: rest =>
        if rest.getLast? = some [')'] then
          whole s wanted size (token rest.dropLast) rest.dropLast
        else plain
      | ['!'] :: rest => holds s false rest fuel
      | _ => plain
    match words with
    | [] => .ok (!wanted)
    | [_, o, _] => if isBinary o then whole s wanted size .operand words else shortened
    | [_, _, _, _] => shortened
    | _ => plain

end Condition

/-- Whether the condition of some words holds, or what is wrong with them. -/
def condition (s : Condition.Surroundings) (words : List Bytes) : Except Bytes Bool :=
  Condition.holds s true words (words.length + 1)

end Shell
end CheckScript
