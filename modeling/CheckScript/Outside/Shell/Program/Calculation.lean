/-
A program that computes: numbers, comparisons, and parts of texts.
-/
import CheckScript.Outside.Shell.Program.Text
import CheckScript.Outside.Shell.Regex

namespace CheckScript
namespace Shell
namespace Job

inductive Term where
  | number (n : Int)
  | text (b : Bytes)

namespace Term

def bytes : Term → Bytes
  | number n => Bytes.ofInt n
  | text b => b

def number? : Term → Option Int
  | number n => some n
  | text b =>
    match b with
    | '-' :: ds => (natural? ds).map fun n => -(n : Int)
    | ds => (natural? ds).map fun n => (n : Int)

/-- Empty texts and zeros are false. -/
def isFalse (t : Term) : Bool := t.bytes.isEmpty || t.number? == some 0

end Term

/-- What is left of an expression, and the word before it. -/
abbrev Calculation := StateT (List Bytes × Bytes) Job

def syntaxFault {α : Type} (text : Bytes) : Calculation α :=
  giveUp 2 ("syntax error: ".toList ++ text)

def nextWord : Calculation Bytes := do
  let (words, last) ← get
  match words with
  | [] => syntaxFault ("missing argument after ".toList ++ Quoting.always last)
  | w :: ws =>
    set (ws, w)
    return w

def acceptWord (ops : List String) : Calculation (Option String) := do
  let (words, _) ← get
  match words with
  | [] => return none
  | w :: ws =>
    match ops.find? fun o => o.toList == w with
    | none => return none
    | some o =>
      set (ws, w)
      return some o

/-- Match a text from its start on: what the first group has matched, or the number
of characters. -/
def matchTerm (subject pattern : Bytes) : Calculation Term := do
  match Regex.read .basic pattern with
  | .error fault => giveUp 2 fault.message.toList
  | .ok r =>
    let s : Regex.Subject := ⟨List.toArray subject, false⟩
    let hasGroup := Regex.groupCount false pattern != 0
    match r.matchAt s 0 with
    | none => return if hasGroup then .text [] else .number 0
    | some m =>
      if hasGroup then
        match m.groups.find? fun g => g.1 == 1 with
        | some g => return .text (Regex.textOf s g.2.1 g.2.2)
        | none => return .text []
      else return .number m.stop

def operand (whole : Calculation Term) : Calculation Term := do
  let w ← nextWord
  match String.ofList w with
  | "(" =>
    let t ← whole
    match ← acceptWord [")"] with
    | some _ => return t
    | none =>
      let (words, last) ← get
      match words with
      | [] => syntaxFault ("expecting ')' after ".toList ++ Quoting.always last)
      | w :: _ => syntaxFault ("expecting ')' instead of ".toList ++ Quoting.always w)
  | ")" => syntaxFault "unexpected ')'".toList
  | "+" => return .text (← nextWord)
  | "length" => return .number ((← nextWord).length)
  | "index" =>
    let subject ← nextWord
    let set ← nextWord
    match subject.findIdx? fun c => set.contains c with
    | some i => return .number (i + 1)
    | none => return .number 0
  | "match" => do matchTerm (← nextWord) (← nextWord)
  | "substr" =>
    let subject ← nextWord
    let start ← nextWord
    let count ← nextWord
    match Term.number? (.text start), Term.number? (.text count) with
    | some s, some n =>
      if s ≤ 0 ∨ n ≤ 0 then return .text []
      else return .text ((subject.drop (s.toNat - 1)).take n.toNat)
    | _, _ => return .text []
  | _ => return .text w

def arithmetic (op : String) (a b : Term) : Calculation Term := do
  match a.number?, b.number? with
  | some m, some n =>
    match op with
    | "+" => return .number (m + n)
    | "-" => return .number (m - n)
    | "*" => return .number (m * n)
    | _ =>
      if n = 0 then giveUp 2 "division by zero".toList
      else return .number (if op == "/" then m.tdiv n else m.tmod n)
  | _, _ => giveUp 2 "non-integer argument".toList

def compareTerms (op : String) (a b : Term) : Term :=
  let order := match a.number?, b.number? with
    | some m, some n => compare m n
    | _, _ => compare a.bytes b.bytes
  let isTrue : Bool := match op with
    | "<" => order == .lt
    | "<=" => order != .gt
    | "=" | "==" => order == .eq
    | "!=" => order != .eq
    | ">=" => order != .lt
    | _ => order == .gt
  .number (if isTrue then 1 else 0)

/-- Operands joined from the left by operators of one level. -/
def joinedBy (operand : Calculation Term) (ops : List String)
    (join : String → Term → Term → Calculation Term) (a : Term) : Nat → Calculation Term
  | 0 => return a
  | fuel + 1 => do
    match ← acceptWord ops with
    | none => return a
    | some op =>
      let b ← operand
      joinedBy operand ops join (← join op a b) fuel

def level (operand : Calculation Term) (ops : List String)
    (join : String → Term → Term → Calculation Term) : Calculation Term := do
  let a ← operand
  joinedBy operand ops join a ((← get).1.length + 1)

def calculation : Nat → Calculation Term
  | 0 => return .text []
  | fuel + 1 =>
    let matched := level (operand (calculation fuel)) [":"] fun _ a b =>
      matchTerm a.bytes b.bytes
    let product := level matched ["*", "/", "%"] arithmetic
    let sum := level product ["+", "-"] arithmetic
    let comparison := level sum ["<=", "<", "==", "=", "!=", ">=", ">"] fun op a b =>
      return compareTerms op a b
    let both := level comparison ["&"] fun _ a b =>
      return if a.isFalse || b.isFalse then .number 0 else a
    level both ["|"] fun _ a b =>
      return if !a.isFalse then a else if b.isFalse then .number 0 else b

def expr : Job Unit := do
  let words := (← get).arguments
  if words.isEmpty then usage 2 "missing operand".toList
  let (t, rest, _) ← (calculation (words.length + 1)).run (words, [])
  match rest with
  | w :: _ => giveUp 2 ("syntax error: unexpected argument ".toList ++ Quoting.always w)
  | [] =>
    printLine t.bytes
    quit (if t.isFalse then 1 else 0)

end Job
end Shell
end CheckScript
