/-
The words of report scripts.
-/
import CheckScript.Outside.Shell.Builtin.Printing
import CheckScript.Outside.Shell.Program.Report.Syntax

namespace CheckScript
namespace Shell
namespace Report

/-- Why a script cannot be read. -/
inductive Fault where
  | character (line : Nat) (c : Char)
  | at (line : Nat) (text : Bytes)

def Fault.message : Fault → Bytes
  | character line c => s!"{line}: unexpected character '{c}'".toList
  | .at line text => s!"line {line}: ".toList ++ text

inductive Token where
  | number (x : Float)
  | text (b : Bytes)
  | regex (r : Regex)
  | function (f : Function) (least most : Nat)
  | name (b : Bytes) (called : Bool)
  | keyword (k : String)
  | sign (s : String)
  | newline
  | endOfText

/-- A token, the line it stands on, and what messages show of it. -/
structure Placed where
  token : Token
  line : Nat
  shown : Bytes

def keywords : List String :=
  ["BEGIN", "END", "break", "continue", "delete", "do", "else", "exit", "for", "function",
    "getline", "if", "in", "next", "nextfile", "print", "printf", "return", "while"]

/-- The signs, those that begin with others before them. -/
def signs : List String :=
  ["+=", "-=", "*=", "/=", "%=", "^=", "==", "<=", ">=", "!=", "!~", "++", "--", "&&", "||", ">>",
    "\x7b", "\x7d", "(", ")", "[", "]", ";", ",", "+", "-", "*", "/", "%", "^", "!", ">", "<", "|",
    "?", ":", "~", "$", "="]

/-! ## Texts and expressions -/

def hexValue? (c : Char) : Option Nat :=
  if isDigit c then some (c.toNat - 48)
  else if 'a' ≤ c ∧ c ≤ 'f' then some (c.toNat - 87)
  else if 'A' ≤ c ∧ c ≤ 'F' then some (c.toNat - 55)
  else none

/-- Carry out the escapes of a text. -/
def unescape : Nat → Bytes → Bytes
  | 0, _ | _, [] => []
  | fuel + 1, '\\' :: '"' :: cs => '"' :: unescape fuel cs
  | fuel + 1, '\\' :: '\n' :: cs => unescape fuel cs
  | fuel + 1, '\\' :: 'e' :: cs => '\\' :: 'e' :: unescape fuel cs
  | fuel + 1, '\\' :: 'x' :: cs =>
    let digits := (cs.take 2).takeWhile fun c => (hexValue? c).isSome
    let n := (digits.filterMap hexValue?).foldl (fun n d => 16 * n + d) 0
    if digits.isEmpty then '\\' :: 'x' :: unescape fuel cs
    else Char.ofNat n :: unescape fuel (cs.drop digits.length)
  | fuel + 1, '\\' :: cs =>
    let r := Printing.escape cs
    r.1 :: unescape fuel r.2
  | fuel + 1, c :: cs => c :: unescape fuel cs

/-- Carry out those escapes of an expression that do not belong to its own signs. -/
def plainEscapes : Bytes → Bytes
  | '\\' :: '/' :: cs => '/' :: plainEscapes cs
  | '\\' :: '"' :: cs => '"' :: plainEscapes cs
  | '\\' :: 'n' :: cs => '\n' :: plainEscapes cs
  | '\\' :: 't' :: cs => '\t' :: plainEscapes cs
  | '\\' :: 'r' :: cs => '\r' :: plainEscapes cs
  | '\\' :: 'f' :: cs => '\x0c' :: plainEscapes cs
  | '\\' :: 'v' :: cs => '\x0b' :: plainEscapes cs
  | '\\' :: 'a' :: cs => '\x07' :: plainEscapes cs
  | '\\' :: c :: cs => '\\' :: c :: plainEscapes cs
  | c :: cs => c :: plainEscapes cs
  | [] => []

/-- Why an expression cannot be read. -/
def regexReason : Regex.Fault → String
  | .openGroup => "missing ')'"
  | .openBracket => "bad class -- [], [^] or ["
  | .nothingToRepeat => "missing operand"
  | fault => fault.message

def readRegex (b : Bytes) : Except Bytes Regex :=
  match Regex.read ⟨true, false, false⟩ (plainEscapes b) with
  | .ok r => .ok r
  | .error fault =>
    .error ("regular expression compile failed (".toList ++ (regexReason fault).toList ++
      ")\n".toList ++ b)

/-! ## Tokens -/

/-- The text up to an unescaped mark, which may stand in brackets if they count. -/
def upTo (mark : Char) (brackets inside : Bool) (read : Bytes) : Bytes → Option (Bytes × Bytes)
  | [] => none
  | '\\' :: c :: cs => upTo mark brackets inside (c :: '\\' :: read) cs
  | c :: cs =>
    if c = '\n' then none
    else if c = mark ∧ !inside then some (read.reverse, cs)
    else
      let inside := brackets && (c == '[' || (inside && c != ']'))
      upTo mark brackets inside (c :: read) cs

/-- The digits that a number is written with. -/
def numberLength (cs : Bytes) : Nat :=
  let whole := (cs.takeWhile isDigit).length
  let rest := cs.drop whole
  let fraction := match rest with
    | '.' :: more => 1 + (more.takeWhile isDigit).length
    | _ => 0
  let size := whole + fraction
  let signed (skip : Nat) (more : Bytes) : Nat :=
    let digits := (more.takeWhile isDigit).length
    if digits = 0 then size else size + skip + digits
  match cs.drop size with
  | 'e' :: '-' :: more | 'e' :: '+' :: more | 'E' :: '-' :: more | 'E' :: '+' :: more =>
    signed 2 more
  | 'e' :: more | 'E' :: more => signed 1 more
  | _ => size

/-- Whether a slash behind a token divides by what follows it. -/
def Token.isOperand : Token → Bool
  | .number _ | .text _ | .regex _ | .function .. | .name .. => true
  | .sign s => [")", "]", "$", "++", "--"].contains s
  | _ => false

def wordToken (word : Bytes) (rest : Bytes) : Token :=
  let name := String.ofList word
  if keywords.contains name then .keyword name
  else
    match functions.find? fun f => f.1 == name with
    | some (_, f, least, most) => .function f least most
    | none => .name word (rest.head? == some '(')

/-- What a mark encloses; there must be another mark on its line. -/
def enclosed (kind : String) (mark : Char) (line : Nat) (cs : Bytes) :
    Except Fault (Bytes × Bytes) :=
  match upTo mark (mark == '/') false [] cs with
  | some r => .ok r
  | none =>
    .error (.at line (("runaway " ++ kind ++ " ").toList ++ mark :: cs.takeWhile (· != '\n') ++
      " ...".toList))

/-- The next token, which is not blank, and what follows it. -/
def nextToken (line : Nat) (before : Token) (c : Char) (cs : Bytes) :
    Except Fault (Token × Bytes × Bytes) := do
  let all := c :: cs
  let size := numberLength all
  if c = '\n' then return (.newline, "end of line".toList, cs)
  else if c = '"' then
    let (b, rest) ← enclosed "string constant" '"' line cs
    return (.text (unescape b.length b), '"' :: b ++ ['"'], rest)
  else if c = '/' ∧ !before.isOperand then
    let (b, rest) ← enclosed "regular expression" '/' line cs
    match readRegex b with
    | .ok r => return (.regex r, '/' :: b ++ ['/'], rest)
    | .error text => .error (.at line text)
  else if isDigit c ∨ (c = '.' ∧ 1 < size) then
    let word := all.take size
    return (.number (Printing.floatArgument word).1, word, all.drop size)
  else if isNameStart c then
    let word := all.takeWhile isNameChar
    let rest := all.drop word.length
    return (wordToken word rest, word, rest)
  else
    match signs.find? fun s => s.toList.isPrefixOf all with
    | some s => return (.sign s, s.toList, all.drop s.length)
    | none => .error (.character line c)

def tokensFrom (line : Nat) (before : Token) : Nat → Bytes → Except Fault (List Placed)
  | 0, _ => .ok []
  | _, [] => .ok []
  | fuel + 1, c :: cs => do
    if c = ' ' ∨ c = '\t' ∨ c = '\r' then tokensFrom line before fuel cs
    else if c = '#' then tokensFrom line before fuel (cs.dropWhile (· != '\n'))
    else
      match c, cs with
      | '\\', '\n' :: rest => tokensFrom (line + 1) before fuel rest
      | _, _ =>
        let (token, shown, rest) ← nextToken line before c cs
        let more ← tokensFrom (if c = '\n' then line + 1 else line) token fuel rest
        return { token, line, shown } :: more

def tokens (script : Bytes) : Except Fault (List Placed) :=
  tokensFrom 1 .newline (script.length + 1) script

end Report
end Shell
end CheckScript
