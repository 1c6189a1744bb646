/-
The machine interface of a debugger, one record on each line:

  result record   token? ^ class (, result)*
  async record    token? (* | + | =) class (, result)*
  stream record   (~ | @ | &) string
  result          name = value
  value           string, tuple or list

A line of another form is taken as it is, so that a script can wait for any
text.
-/
import CheckScript.Integer
import CheckScript.Record.Basic
import CheckScript.Text.Blank
import CheckScript.Text.Lines

namespace CheckScript
namespace Mi

inductive Problem where
  | missingClass
  | unknownClass (name : String)
  | expected (sign : Char)
  | trailingText
  | unnamed
  | emptyName
  | expectedValue
  | unclosed (closing : Char)
  | openString
deriving DecidableEq, Repr

namespace Problem

def message : Problem → String
  | missingClass => "missing record class"
  | unknownClass name => s!"unknown result class '{name}'"
  | expected sign => s!"expected '{sign}'"
  | trailingText => "unexpected trailing text"
  | unnamed => "expected '=' after variable name"
  | emptyName => "empty variable name"
  | expectedValue => "expected value"
  | unclosed closing => s!"expected ',' or '{closing}'"
  | openString => "unterminated string"

end Problem

/-- A problem with the text that was still to be read when it was met. -/
structure Fault where
  problem : Problem
  rest : List Char
deriving DecidableEq, Repr

/-- A problem with its column in the line, in bytes and counted from 1. -/
structure LineFault where
  line : String
  problem : Problem
  column : Nat
deriving DecidableEq, Repr

namespace LineFault

def reason (f : LineFault) : String := s!"{f.problem.message} at column {f.column}"

end LineFault

def byteSize (cs : List Char) : Nat := (cs.map Char.utf8Size).foldr (· + ·) 0

def Fault.inLine (line : List Char) (f : Fault) : LineFault :=
  ⟨String.ofList line, f.problem, byteSize line - byteSize f.rest + 1⟩

def unescape : Char → Char
  | 'n' => '\n'
  | 't' => '\t'
  | 'r' => '\r'
  | '0' => '\x00'
  | c => c

/-- A string behind its opening quote, and what follows the closing one. -/
def stringRest : List Char → Option (List Char × List Char)
  | [] => none
  | '"' :: rest => some ([], rest)
  | ['\\'] => none
  | '\\' :: c :: rest => (stringRest rest).map fun r => (unescape c :: r.1, r.2)
  | c :: rest => (stringRest rest).map fun r => (c :: r.1, r.2)

theorem stringRest_length {cs text rest : List Char} (h : stringRest cs = some (text, rest)) :
    rest.length < cs.length := by
  fun_induction stringRest cs generalizing text with
  | case1 => simp at h
  | case2 => simp_all
  | case3 => simp at h
  | case4 _ _ ih =>
    simp only [Option.map_eq_some_iff, Prod.mk.injEq, Prod.exists] at h
    obtain ⟨a, b, hab, -, rfl⟩ := h
    have := ih hab
    simp only [List.length_cons]; omega
  | case5 _ _ _ _ _ ih =>
    simp only [Option.map_eq_some_iff, Prod.mk.injEq, Prod.exists] at h
    obtain ⟨a, b, hab, -, rfl⟩ := h
    have := ih hab
    simp only [List.length_cons]; omega

def isReserved (c : Char) : Bool :=
  c == ',' || c == '{' || c == '}' || c == '[' || c == ']' || c == '"'

def isNameChar (c : Char) : Bool := c != '=' && !isReserved c

/-- A name up to its equals sign, and what follows the sign. -/
def readName (cs : List Char) : Except Fault (String × List Char) :=
  let name := cs.takeWhile isNameChar
  match cs.dropWhile isNameChar with
  | [] => if name.isEmpty then .error ⟨.emptyName, []⟩ else .error ⟨.expected '=', []⟩
  | c :: rest =>
    if c = '=' then
      if name.isEmpty then .error ⟨.emptyName, c :: rest⟩ else .ok (String.ofList name, rest)
    else .error ⟨.unnamed, c :: rest⟩

theorem readName_length {cs rest : List Char} {name : String}
    (h : readName cs = .ok (name, rest)) : rest.length < cs.length := by
  unfold readName at h
  simp only at h
  split at h
  · split at h <;> simp at h
  · rename_i c r hr
    have hle : (c :: r).length ≤ cs.length := hr ▸ (List.dropWhile_suffix _).length_le
    split at h
    · split at h
      · simp at h
      · simp only [Except.ok.injEq, Prod.mk.injEq] at h
        obtain ⟨-, rfl⟩ := h
        exact hle
    · simp at h

/-- What was read from the front of `cs`, and a shorter rest. -/
abbrev Read (α : Type) (cs : List Char) : Type :=
  Except Fault { p : α × List Char // p.2.length < cs.length }

mutual

def value (cs : List Char) : Read RecordValue cs :=
  match cs with
  | '"' :: rest =>
    match h : stringRest rest with
    | none => .error ⟨.openString, []⟩
    | some (text, after) =>
      .ok ⟨(.const (String.ofList text), after), Nat.lt_succ_of_lt (stringRest_length h)⟩
  | '{' :: '}' :: rest => .ok ⟨(.tuple [], rest), by simp only [List.length_cons]; omega⟩
  | '{' :: rest =>
    match fields '}' rest with
    | .error f => .error f
    | .ok ⟨(fs, after), h⟩ => .ok ⟨(.tuple fs, after), Nat.lt_succ_of_lt h⟩
  | '[' :: ']' :: rest => .ok ⟨(.list [], rest), by simp only [List.length_cons]; omega⟩
  | '[' :: rest =>
    if rest.head? = some '"' ∨ rest.head? = some '{' ∨ rest.head? = some '[' then
      match items rest with
      | .error f => .error f
      | .ok ⟨(vs, after), h⟩ => .ok ⟨(.list vs, after), Nat.lt_succ_of_lt h⟩
    else
      match fields ']' rest with
      | .error f => .error f
      | .ok ⟨(fs, after), h⟩ =>
        .ok ⟨(.list (fs.map fun f => .tuple [f]), after), Nat.lt_succ_of_lt h⟩
  | cs => .error ⟨.expectedValue, cs⟩
termination_by 3 * cs.length

def result (cs : List Char) : Read (String × RecordValue) cs :=
  match hn : readName cs with
  | .error f => .error f
  | .ok (name, rest) =>
    have := readName_length hn
    match value rest with
    | .error f => .error f
    | .ok ⟨(v, after), h⟩ => .ok ⟨((name, v), after), Nat.lt_trans h this⟩
termination_by 3 * cs.length + 1

/-- Results with commas between them, up to the sign that closes them. -/
def fields (closing : Char) (cs : List Char) : Read (List (String × RecordValue)) cs :=
  match result cs with
  | .error f => .error f
  | .ok ⟨(field, after), h⟩ =>
    match after with
    | [] => .error ⟨.unclosed closing, []⟩
    | c :: rest =>
      have hc : rest.length < cs.length := Nat.lt_of_succ_lt h
      if c = ',' then
        match fields closing rest with
        | .error f => .error f
        | .ok ⟨(fs, last), hl⟩ => .ok ⟨(field :: fs, last), Nat.lt_trans hl hc⟩
      else if c = closing then .ok ⟨([field], rest), hc⟩
      else .error ⟨.unclosed closing, c :: rest⟩
termination_by 3 * cs.length + 2

/-- Values with commas between them, up to the bracket that closes them. -/
def items (cs : List Char) : Read (List RecordValue) cs :=
  match value cs with
  | .error f => .error f
  | .ok ⟨(v, after), h⟩ =>
    match after with
    | [] => .error ⟨.unclosed ']', []⟩
    | c :: rest =>
      have hc : rest.length < cs.length := Nat.lt_of_succ_lt h
      if c = ',' then
        match items rest with
        | .error f => .error f
        | .ok ⟨(vs, last), hl⟩ => .ok ⟨(v :: vs, last), Nat.lt_trans hl hc⟩
      else if c = ']' then .ok ⟨([v], rest), hc⟩
      else .error ⟨.unclosed ']', c :: rest⟩
termination_by 3 * cs.length + 1

end

/-- The results behind a class, up to the end of the line. -/
def results (cs : List Char) : Except Fault (List (String × RecordValue)) :=
  match cs with
  | [] => .ok []
  | c :: rest =>
    if c = ',' then
      match result rest with
      | .error f => .error f
      | .ok ⟨(field, after), h⟩ =>
        have : after.length < rest.length + 1 := Nat.lt_succ_of_lt h
        (results after).map (field :: ·)
    else .error ⟨.expected ',', c :: rest⟩
termination_by cs.length
decreasing_by exact this

def resultClasses : List String := ["done", "running", "connected", "error", "exit"]

/-- A result or asynchronous record behind its sign. -/
def structured (line : List Char) (token : Option Nat) (kind : RecordKind) (cs : List Char) :
    Except Fault Record :=
  let className := cs.takeWhile (· != ',')
  let rest := cs.dropWhile (· != ',')
  if className.isEmpty then .error ⟨.missingClass, rest⟩
  else if kind = .result ∧ String.ofList className ∉ resultClasses then
    .error ⟨.unknownClass (String.ofList className), rest⟩
  else
    (results rest).map fun fs =>
      { line := String.ofList line, token, kind, className := String.ofList className,
        results := .tuple fs, text := none }

/-- A stream record behind its sign. -/
def streamed (line : List Char) (kind : RecordKind) (cs : List Char) : Except Fault Record :=
  match cs with
  | '"' :: rest =>
    match stringRest rest with
    | none => .error ⟨.openString, []⟩
    | some (text, []) => .ok (.stream (String.ofList line) kind (String.ofList text))
    | some (_, after) => .error ⟨.trailingText, after⟩
  | cs => .error ⟨.expected '"', cs⟩

/-- The digits at the start of a line, and the rest. -/
def splitDigits (cs : List Char) : List Char × List Char :=
  (cs.takeWhile Text.isDigit, cs.dropWhile Text.isDigit)

/-- The token that leading digits spell.  A number of more than 64 bits is no
token. -/
def tokenOf (digits : List Char) : Option Nat := Integer.word? 64 digits

/-- Read a line that ends without a carriage return. -/
def readLine (line : List Char) : Except Fault Record :=
  let s := splitDigits line
  let token := tokenOf s.1
  if Text.trimChars line = "(gdb)".toList then .ok (.prompt (String.ofList line))
  else
    match s.2 with
    | '^' :: rest => structured line token .result rest
    | '*' :: rest => structured line token .exec rest
    | '+' :: rest => structured line token .status rest
    | '=' :: rest => structured line token .notify rest
    | '~' :: rest =>
      if token.isNone then streamed line .console rest else .ok (.raw (String.ofList line))
    | '@' :: rest =>
      if token.isNone then streamed line .target rest else .ok (.raw (String.ofList line))
    | '&' :: rest =>
      if token.isNone then streamed line .log rest else .ok (.raw (String.ofList line))
    | _ => .ok (.raw (String.ofList line))

def read (line : String) : Except LineFault Record :=
  let cs := Text.dropReturn line.toList
  (readLine cs).mapError (Fault.inLine cs)

end Mi

/-- How matched lines become records. -/
inductive RecordFormat where
  | mi
  | raw
deriving DecidableEq, Repr

namespace RecordFormat

def read : RecordFormat → String → Except Mi.LineFault Record
  | mi, line => Mi.read line
  | raw, line => .ok (.raw line)

end RecordFormat
end CheckScript
