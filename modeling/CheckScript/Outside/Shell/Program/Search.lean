/-
Looking for files below directories: what is asked of them, and what is done with
those that are found.
-/
import CheckScript.Outside.Shell.Program.FileWork

namespace CheckScript
namespace Shell
namespace Search

/-- What is done with a file that is found.  Commands get its name in place of two
braces, or the names of all files at once. -/
inductive Action where
  | print (ending : Char)
  | delete
  | command (words : List Bytes) (atOnce : Bool)
deriving DecidableEq, Repr

/-- What is asked of a file. -/
inductive Question where
  | always (answer : Bool)
  | named (pattern : Pattern) (fold : Bool)
  | pathed (pattern : Pattern)
  | file
  | directory
  | empty
  | sized (order : Ordering) (unit count : Nat)
  | negated (q : Question)
  | both (p q : Question)
  | either (p q : Question)
  | act (a : Action)

/-- How deep the search goes, and whether it begins inside. -/
structure Bounds where
  least : Nat
  most : Option Nat
  innerFirst : Bool

def Bounds.all : Bounds := ⟨0, none, false⟩

/-! ## Reading -/

/-- What is left to read, and the bounds that have been met. -/
structure Reading where
  words : List Bytes
  bounds : Bounds

abbrev Reader := StateT Reading (Except Bytes)

def literalPattern (b : Bytes) : Pattern := Pattern.ofChars (b.map fun c => (c, false))

/-- A word between a grave accent and an apostrophe. -/
def marked (word : Bytes) : Bytes := Char.ofNat 96 :: word ++ ['\'']

/-- The word behind one that needs it. -/
def argument (word : Bytes) : Reader Bytes := do
  match (← get).words with
  | [] => throw ("missing argument to ".toList ++ marked word)
  | a :: rest =>
    modify fun r => { r with words := rest }
    return a

/-- A number that may be more or less than the one asked for. -/
def compared (word : Bytes) : Reader (Ordering × Bytes) := do
  match ← argument word with
  | '+' :: rest => return (.gt, rest)
  | '-' :: rest => return (.lt, rest)
  | rest => return (.eq, rest)

def depth (word : Bytes) : Reader Nat := do
  let a ← argument word
  match natural? a with
  | some n => return n
  | none => throw ("Expected a positive decimal integer argument to ".toList ++ word ++
      ", but got ".toList ++ Quoting.always a)

/-- A size in units of bytes, as the letter behind the number says. -/
def size (word : Bytes) : Reader Question := do
  let (order, text) ← compared word
  let digits := text.takeWhile isDigit
  let unit? : Option Nat := match text.drop digits.length with
    | [] | ['b'] => some 512
    | ['c'] => some 1
    | ['w'] => some 2
    | ['k'] => some 1024
    | ['M'] => some (1024 * 1024)
    | _ => none
  match natural? digits, unit? with
  | some n, some unit => return .sized order unit n
  | _, _ => throw ("invalid -size type ".toList ++ marked text)

/-- The words of a command up to the one that ends it. -/
def commandWords (word : Bytes) (read : List Bytes) : Nat → Reader Question
  | 0 => throw ("missing argument to ".toList ++ marked word)
  | fuel + 1 => do
    match ← argument word with
    | [';'] =>
      if read.isEmpty then throw ("missing argument to ".toList ++ marked word)
      else return .act (.command read.reverse false)
    | ['+'] =>
      if read.head? = some ['{', '}'] then return .act (.command read.reverse.dropLast true)
      else commandWords word (['+'] :: read) fuel
    | w => commandWords word (w :: read) fuel

mutual

def disjunction : Nat → Reader Question
  | 0 => throw "too many words".toList
  | fuel + 1 => do
    let q ← conjunction fuel
    match (← get).words with
    | word :: rest =>
      if word == "-o".toList || word == "-or".toList then
        modify fun r => { r with words := rest }
        return .either q (← disjunction fuel)
      else return q
    | [] => return q

def conjunction : Nat → Reader Question
  | 0 => throw "too many words".toList
  | fuel + 1 => do
    let q ← primary fuel
    match (← get).words with
    | [] | [')'] :: _ => return q
    | word :: rest =>
      if word == "-o".toList || word == "-or".toList then return q
      else
        if word == "-a".toList || word == "-and".toList then
          modify fun r => { r with words := rest }
        return .both q (← conjunction fuel)

def primary : Nat → Reader Question
  | 0 => throw "too many words".toList
  | fuel + 1 => do
    match (← get).words with
    | [] => return .always true
    | word :: rest =>
      modify fun r => { r with words := rest }
      match String.ofList word with
      | "!" | "-not" => return .negated (← primary fuel)
      | "(" =>
        let q ← disjunction fuel
        match (← get).words with
        | [')'] :: rest =>
          modify fun r => { r with words := rest }
          return q
        | _ => throw ("invalid expression; I was expecting to find a ')' somewhere " ++
            "but did not see one.").toList
      | "-name" => return .named (literalPattern (← argument word)) false
      | "-iname" => return .named (literalPattern ((← argument word).map Char.toLower)) true
      | "-path" | "-wholename" => return .pathed (literalPattern (← argument word))
      | "-type" =>
        match ← argument word with
        | ['f'] => return .file
        | ['d'] => return .directory
        | [c] =>
          if "lbcps".toList.contains c then return .always false
          else throw ("Unknown argument to -type: ".toList ++ [c])
        | a => throw ("Unknown argument to -type: ".toList ++ a.take 1)
      | "-size" => size word
      | "-empty" => return .empty
      | "-true" => return .always true
      | "-false" => return .always false
      | "-newer" =>
        let _ ← argument word
        return .always false
      | "-maxdepth" =>
        let n ← depth word
        modify fun r => { r with bounds := { r.bounds with most := some n } }
        return .always true
      | "-mindepth" =>
        let n ← depth word
        modify fun r => { r with bounds := { r.bounds with least := n } }
        return .always true
      | "-depth" =>
        modify fun r => { r with bounds := { r.bounds with innerFirst := true } }
        return .always true
      | "-print" => return .act (.print '\n')
      | "-print0" => return .act (.print '\x00')
      | "-delete" =>
        modify fun r => { r with bounds := { r.bounds with innerFirst := true } }
        return .act .delete
      | "-exec" => commandWords word [] fuel
      | _ =>
        if word.head? = some '-' then throw ("unknown predicate ".toList ++ marked word)
        else throw ("paths must precede expression: ".toList ++ marked word)

end

/-- Whether a question does something with files. -/
def Question.acts : Question → Bool
  | act _ => true
  | negated q => q.acts
  | both p q | either p q => p.acts || q.acts
  | _ => false

/-- What words ask for.  Files are printed if nothing else is done with them. -/
def ofWords (words : List Bytes) : Except Bytes (Question × Bounds) := do
  let fuel := 3 * words.length + 3
  let start : Reading := ⟨words, .all⟩
  if words.isEmpty then return (.act (.print '\n'), start.bounds)
  let (q, r) ← (disjunction fuel).run start
  match r.words with
  | [] => return (if q.acts then q else .both q (.act (.print '\n')), r.bounds)
  | _ => throw "invalid expression; you have too many ')'".toList

/-! ## Answers -/

/-- A file that has been found. -/
structure Found where
  depth : Nat
  path : Bytes
  node : FileNode

/-- What is at and below a place. -/
def walk (bounds : Bounds) (depth : Nat) : Nat → Bytes → FileNode → List Found
  | 0, _, _ => []
  | fuel + 1, path, node =>
    let self := if bounds.least ≤ depth then [⟨depth, path, node⟩] else []
    let goesOn := bounds.most.all (depth < ·)
    let inner := match node with
      | .directory entries =>
        if goesOn then entries.flatMap fun e =>
          walk bounds (depth + 1) fuel (Job.below path (Bytes.ofText e.1)) e.2
        else []
      | .file _ => []
    if bounds.innerFirst then inner ++ self else self ++ inner

def nodeSize : FileNode → Nat
  | .file bytes => bytes.size
  | .directory _ => 4096

/-- Answer a question; `act` does things and tells whether they have succeeded. -/
def Question.answer {m : Type → Type} [Monad m] (perform : Action → Found → m Bool) (f : Found) :
    Question → m Bool
  | always b => return b
  | named pattern fold =>
    let name := Job.lastName f.path
    return pattern.fits (if fold then name.map Char.toLower else name)
  | pathed pattern => return pattern.fits f.path
  | file => return !f.node.isDirectory
  | directory => return f.node.isDirectory
  | empty =>
    match f.node with
    | .file bytes => return bytes.isEmpty
    | .directory entries => return entries.isEmpty
  | sized order unit count => return compare ((nodeSize f.node + unit - 1) / unit) count == order
  | negated q => do return !(← answer perform f q)
  | both p q => do if ← answer perform f p then answer perform f q else return false
  | either p q => do if ← answer perform f p then return true else answer perform f q
  | act a => perform a f

end Search
end Shell
end CheckScript
