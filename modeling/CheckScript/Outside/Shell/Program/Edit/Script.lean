/-
Editing scripts: commands for the lines of a text, each with the lines that it is
for.
-/
import CheckScript.Outside.Shell.Regex

namespace CheckScript
namespace Shell

/-- One line or more.  An expression that is left out is the one used last. -/
inductive EditAddress where
  | line (n : Nat)
  | last
  | stepped (first step : Nat)
  | matching (r : Option Regex) (fold : Bool)

/-- Where a range ends: at an address, some lines later, or at a multiple. -/
inductive EditEnd where
  | address (a : EditAddress)
  | after (n : Nat)
  | multiple (n : Nat)

inductive EditWhere where
  | everywhere
  | one (a : EditAddress)
  | range (a : EditAddress) (e : EditEnd)

/-- A piece of a replacement.  The changes of case hold until the next one. -/
inductive EditPiece where
  | text (b : Bytes)
  | group (n : Nat)
  | case (letter : Char)

structure Substitution where
  regex : Option Regex
  fold : Bool
  pieces : List EditPiece
  all : Bool
  number : Nat
  prints : Bool
  file : Option Bytes

inductive EditOp where
  | block (stop : Nat)
  | noop
  | label (name : Bytes)
  | jump (condition : Option Bool) (name : Bytes)
  | insert (text : Bytes)
  | append (text : Bytes)
  | change (text : Bytes)
  | delete
  | deleteFirst
  | print
  | printFirst
  | printEscaped
  | number
  | next
  | joinNext
  | hold
  | holdMore
  | restore
  | restoreMore
  | exchange
  | quit (status : Nat)
  | quitQuietly (status : Nat)
  | readFile (name : Bytes)
  | writeFile (name : Bytes)
  | writeFirst (name : Bytes)
  | substitute (s : Substitution)
  | recode (pairs : List (Char × Char))
  | clear

structure EditStep where
  lines : EditWhere
  negated : Bool
  op : EditOp

namespace Edit

/-! ## Reading -/

/-- Why a script cannot be read, with the number of characters read. -/
inductive Fault where
  | at (count : Nat) (text : String)
  | label (name : Bytes)

structure Reading where
  rest : Bytes
  count : Nat

abbrev Parser := StateT Reading (Except Fault)

def fail {α : Type} (text : String) : Parser α := do throw (.at (← get).count text)

/-- A fault of the script as a whole. -/
def failWhole {α : Type} (text : String) : Parser α := throw (.at 0 text)

def peek : Parser (Option Char) := return (← get).rest.head?

def take : Parser (Option Char) := do
  let s ← get
  match s.rest with
  | [] => return none
  | c :: rest =>
    set (⟨rest, s.count + 1⟩ : Reading)
    return some c

def takeWhile (p : Char → Bool) : Parser Bytes := do
  let s ← get
  let front := s.rest.takeWhile p
  set (⟨s.rest.drop front.length, s.count + front.length⟩ : Reading)
  return front

def accept (c : Char) : Parser Bool := do
  if (← peek) = some c then
    let _ ← take
    return true
  else return false

def isGap (c : Char) : Bool := c == ' ' || c == '\t'

def skipGap : Parser Unit := do let _ ← takeWhile isGap

def number : Parser Nat :=
  return (← takeWhile isDigit).foldl (fun n c => 10 * n + (c.toNat - 48)) 0

/-- The text up to a mark that nothing protects, and what is left.  In an
expression brackets protect it.  A backslash goes when it protects the mark. -/
def upTo (mark : Char) (isRegex inBrackets : Bool) (text : Bytes) :
    Bytes → Except Bytes (Bytes × Bytes)
  | [] => .error text
  | '\\' :: c :: cs =>
    if inBrackets then
      if c = ']' then upTo mark isRegex false (c :: '\\' :: text) cs
      else upTo mark isRegex true (c :: '\\' :: text) cs
    else if c = mark then upTo mark isRegex false (c :: text) cs
    else if c = 'n' && isRegex then upTo mark isRegex false ('\n' :: text) cs
    else upTo mark isRegex false (c :: '\\' :: text) cs
  | c :: cs =>
    if inBrackets then upTo mark isRegex (c != ']') (c :: text) cs
    else if c = mark then .ok (text.reverse, cs)
    else if isRegex && c = '[' then
      match cs with
      | '^' :: ']' :: cs => upTo mark isRegex true (']' :: '^' :: c :: text) cs
      | ']' :: cs => upTo mark isRegex true (']' :: c :: text) cs
      | cs => upTo mark isRegex true (c :: text) cs
    else upTo mark isRegex false (c :: text) cs

/-- The text up to the mark, which is taken. -/
def delimited (mark : Char) (isRegex : Bool) (unterminated : String) : Parser Bytes := do
  let s ← get
  match upTo mark isRegex false [] s.rest with
  | .ok (text, rest) =>
    set (⟨rest, s.count + (s.rest.length - rest.length)⟩ : Reading)
    return text
  | .error _ =>
    set (⟨[], s.count + s.rest.length⟩ : Reading)
    fail unterminated

def expression (extended : Bool) (text : Bytes) : Parser (Option Regex) := do
  if text.isEmpty then return none
  else
    match Regex.read ⟨extended, false, false⟩ text with
    | .ok r => return some r
    | .error fault => fail fault.message

def address (extended : Bool) : Parser (Option EditAddress) := do
  match ← peek with
  | some '$' =>
    let _ ← take
    return some .last
  | some c =>
    if isDigit c then
      let n ← number
      if ← accept '~' then return some (.stepped n (← number)) else return some (.line n)
    else if c = '/' ∨ c = '\\' then
      let _ ← take
      let mark ← if c = '\\' then take else pure (some '/')
      match mark with
      | none => fail "unterminated address regex"
      | some mark =>
        let text ← delimited mark true "unterminated address regex"
        let flags ← takeWhile fun c => c == 'I' || c == 'M'
        let r ← expression extended text
        return some (.matching r (flags.contains 'I'))
    else return none
  | none => return none

/-- The lines that a command is for. -/
def lines (extended : Bool) : Parser EditWhere := do
  match ← address extended with
  | none => return .everywhere
  | some first =>
    skipGap
    let isZero := match first with
      | .line 0 => true
      | _ => false
    if ← accept ',' then
      skipGap
      if ← accept '+' then return .range first (.after (← number))
      else if ← accept '~' then return .range first (.multiple (← number))
      else
        match ← address extended with
        | none => fail "unexpected `,'"
        | some (.matching r fold) => return .range first (.address (.matching r fold))
        | some second =>
          if isZero then fail "invalid usage of line address 0"
          else return .range first (.address second)
    else if isZero then
      let _ ← take
      fail "invalid usage of line address 0"
    else return .one first

/-- The text of a command that adds some, up to a newline that nothing protects. -/
def ownLine (text : Bytes) : Bytes → Bytes × Bytes
  | [] => (text.reverse, [])
  | '\\' :: c :: cs => ownLine (c :: text) cs
  | ['\\'] => (text.reverse, [])
  | '\n' :: cs => (text.reverse, cs)
  | c :: cs => ownLine (c :: text) cs

def addedText : Parser Bytes := do
  skipGap
  match (← get).rest with
  | [] => fail "expected \\ after `a', `c' or `i'"
  | _ =>
    if ← accept '\\' then
      let s ← get
      let behind := s.rest.dropWhile isGap
      if behind.head? = some '\n' then
        set (⟨behind.drop 1, s.count + (s.rest.length - behind.length) + 1⟩ : Reading)
      else if behind.isEmpty then
        set (⟨[], s.count + s.rest.length⟩ : Reading)
        return []
    let s ← get
    let (text, rest) := ownLine [] s.rest
    set (⟨rest, s.count + (s.rest.length - rest.length)⟩ : Reading)
    return text ++ ['\n']

/-- The end of a command: of the line, or before a brace or a comment. -/
def endOfCommand : Parser Unit := do
  skipGap
  match ← peek with
  | none | some '\x7d' | some '#' => return ()
  | some c =>
    let _ ← take
    if c = '\n' ∨ c = ';' then return () else fail "extra characters after command"

def fileName : Parser Bytes := do
  skipGap
  let name ← takeWhile (· != '\n')
  let _ ← take
  if name.isEmpty then fail "missing filename in r/R/w/W commands" else return name

/-- A label ends at a semicolon or a blank. -/
def labelName : Parser Bytes := do
  skipGap
  takeWhile fun c => !isSpace c && c != ';' && c != '\x7d'

/-- Pieces of a replacement. -/
def replacement : Bytes → List EditPiece
  | [] => []
  | '\\' :: c :: cs =>
    if isDigit c then .group (c.toNat - 48) :: replacement cs
    else if c = 'n' then .text ['\n'] :: replacement cs
    else if c = 't' then .text ['\t'] :: replacement cs
    else if c = '&' then .text ['&'] :: replacement cs
    else if "LUluE".toList.contains c then .case c :: replacement cs
    else .text [c] :: replacement cs
  | '&' :: cs => .group 0 :: replacement cs
  | c :: cs => .text [c] :: replacement cs

def flags (s : Substitution) : Nat → Parser Substitution
  | 0 => return s
  | fuel + 1 => do
    match ← peek with
    | some 'g' =>
      let _ ← take
      if s.all then fail "multiple `g' options to `s' command"
      flags { s with all := true } fuel
    | some 'p' =>
      let _ ← take
      if s.prints then fail "multiple `p' options to `s' command"
      flags { s with prints := true } fuel
    | some 'i' | some 'I' =>
      let _ ← take
      flags { s with fold := true } fuel
    | some 'w' =>
      let _ ← take
      return { s with file := some (← fileName) }
    | some c =>
      if isDigit c then
        let n ← number
        if n = 0 then fail "number option to `s' command may not be zero"
        if s.number ≠ 0 then fail "multiple number options to `s' command"
        flags { s with number := n } fuel
      else if c = '\n' ∨ c = ';' ∨ c = '\x7d' ∨ c = '#' ∨ isGap c then
        return s
      else
        let _ ← take
        fail "unknown option to `s'"
    | none => return s

def substitution (extended : Bool) : Parser Substitution := do
  let unterminated := "unterminated `s' command"
  match ← take with
  | none => fail unterminated
  | some mark =>
    let text ← delimited mark true unterminated
    let pieces := replacement (← delimited mark false unterminated)
    let s ← flags ⟨none, false, pieces, false, 0, false, none⟩ (← get).rest.length
    let regex ← expression extended text
    let highest := pieces.foldl (fun n p => match p with
      | .group k => max n k
      | _ => n) 0
    if regex.isSome ∧ Regex.groupCount extended text < highest then
      fail s!"invalid reference \\{highest} on `s' command's RHS"
    return { s with regex }

def unescape (mark : Char) : Bytes → Bytes
  | [] => []
  | '\\' :: '\\' :: cs => '\\' :: unescape mark cs
  | '\\' :: 'n' :: cs => '\n' :: unescape mark cs
  | '\\' :: 't' :: cs => '\t' :: unescape mark cs
  | c :: cs => c :: unescape mark cs

def recoding : Parser (List (Char × Char)) := do
  let unterminated := "unterminated `y' command"
  match ← take with
  | none => fail unterminated
  | some mark =>
    let source := unescape mark (← delimited mark false unterminated)
    let target := unescape mark (← delimited mark false unterminated)
    if source.length ≠ target.length then
      fail "strings for `y' command are different lengths"
    return source.zip target

def exitStatus : Parser Nat := do
  skipGap
  number

/-- One command behind its address.  Those that take one address at most are told
from the others. -/
def command (extended : Bool) (w : EditWhere) (c : Char) : Parser EditOp := do
  let isRange := match w with
    | .range .. => true
    | _ => false
  let plain (op : EditOp) : Parser EditOp := do
    endOfCommand
    return op
  match c with
  | '=' => plain .number
  | 'd' => plain .delete
  | 'D' => plain .deleteFirst
  | 'p' => plain .print
  | 'P' => plain .printFirst
  | 'l' => plain .printEscaped
  | 'n' => plain .next
  | 'N' => plain .joinNext
  | 'h' => plain .hold
  | 'H' => plain .holdMore
  | 'g' => plain .restore
  | 'G' => plain .restoreMore
  | 'x' => plain .exchange
  | 'z' => plain .clear
  | 'q' | 'Q' =>
    if isRange then fail "command only uses one address"
    let status ← exitStatus
    plain (if c = 'q' then .quit status else .quitQuietly status)
  | 'a' => return .append (← addedText)
  | 'i' => return .insert (← addedText)
  | 'c' => return .change (← addedText)
  | 'r' => return .readFile (← fileName)
  | 'w' => return .writeFile (← fileName)
  | 'W' => return .writeFirst (← fileName)
  | 's' =>
    let s ← substitution extended
    if s.file.isSome then return .substitute s else plain (.substitute s)
  | 'y' => plain (.recode (← recoding))
  | ':' =>
    skipGap
    let name ← takeWhile fun c => !isSpace c && c != ';'
    if name.isEmpty then fail "\":\" lacks a label" else return .label name
  | 'b' | 't' | 'T' =>
    let name ← labelName
    plain (.jump (if c = 'b' then none else some (c == 't')) name)
  | _ => fail s!"unknown command: `{String.singleton c}'"

/-- Fill in where the innermost open block ends. -/
def closeBlock (steps : List EditStep) : Option (List EditStep) :=
  let stop := steps.length
  let isOpen (s : EditStep) : Bool := match s.op with
    | .block 0 => true
    | _ => false
  let inner := steps.takeWhile fun s => !isOpen s
  match steps.drop inner.length with
  | [] => none
  | s :: rest => some (inner ++ { s with op := .block (stop + 1) } :: rest)

/-- All steps of a script, read so far with the latest first. -/
def steps (extended : Bool) (read : List EditStep) : Nat → Parser (List EditStep)
  | 0 => return read.reverse
  | fuel + 1 => do
    let _ ← takeWhile fun c => isSpace c || c == ';'
    if (← peek).isNone then
      let isOpen := read.any fun s => match s.op with
        | .block 0 => true
        | _ => false
      if isOpen then failWhole "unmatched `\x7b'" else return read.reverse
    else
      let w ← lines extended
      skipGap
      let negated ← accept '!'
      if negated then
        skipGap
        if ← accept '!' then fail "multiple `!'s"
      let addressed := match w with
        | .everywhere => false
        | _ => true
      match ← take with
      | none => fail "missing command"
      | some '#' =>
        if addressed then fail "comments don't accept any addresses"
        let _ ← takeWhile (· != '\n')
        steps extended read fuel
      | some '\x7b' => steps extended (⟨w, negated, .block 0⟩ :: read) fuel
      | some '\x7d' =>
        if addressed then fail "\x7d doesn't want any addresses"
        match closeBlock read with
        | none => fail "unexpected `\x7d'"
        | some closed =>
          endOfCommand
          steps extended (⟨.everywhere, false, .noop⟩ :: closed) fuel
      | some c =>
        if c = '\n' ∨ c = ';' then fail "missing command"
        let op ← command extended w c
        steps extended (⟨w, negated, op⟩ :: read) fuel

/-- Jumps need a label that is there. -/
def missingLabel? (ss : List EditStep) : Option Bytes :=
  ss.findSome? fun s =>
    match s.op with
    | .jump _ name =>
      let there := name.isEmpty || ss.any fun t => match t.op with
        | .label n => n == name
        | _ => false
      if there then none else some name
    | _ => none

def read (extended : Bool) (text : Bytes) : Except Fault (List EditStep) := do
  let r ← (steps extended [] (text.length + 1)).run ⟨text, 0⟩
  match missingLabel? r.1 with
  | some name => throw (.label name)
  | none => return r.1

end Edit
end Shell
end CheckScript
