/-
Reading words: quotes, parameters, and commands whose output is part of a word.
-/
import CheckScript.Outside.Shell.Parser.Basic

namespace CheckScript
namespace Shell
namespace Parser

/-- What the text being read stands in. -/
inductive Scope where
  | word
  | braces (quoted : Bool)
  | quotation
  | document
  | arithmetic (depth : Nat)
deriving DecidableEq, Repr

namespace Scope

/-- Whether characters stand for themselves in it. -/
def quotes : Scope → Bool
  | word | braces false => false
  | _ => true

/-- The fault of a text that ends in it, unless it may end there. -/
def openFault? : Scope → Option SyntaxFault
  | word | document => none
  | braces false => some .openBrace
  | braces true | quotation => some .openQuotation
  | arithmetic _ => some .openParentheses

end Scope

/-- The characters that end a word. -/
def endsWord (c : Char) : Bool := isSpace c || ";&|<>()".toList.contains c

/-- Whether a backslash before `c` makes it stand for itself. -/
def isEscapable (scope : Scope) (c : Char) : Bool :=
  match scope with
  | .word | .braces false => true
  | .braces true => "$`\"\\\x7d".toList.contains c
  | .quotation | .arithmetic _ => "$`\"\\".toList.contains c
  | .document => "$`\\".toList.contains c

/-- The text up to the next single quote. -/
def singleQuoted : Parser Bytes := do
  let s ← get
  let text := s.rest.takeWhile (· != '\'')
  let line := s.line + text.count '\n'
  match s.rest.drop text.length with
  | [] =>
    set { s with rest := [], line }
    fail .openQuotation
  | _ :: rest =>
    set { s with rest, line }
    return text

/-- The text up to the next backquote, with the backslashes dropped that protect
something from the reading of the backquotes. -/
def backquoted (quoted : Bool) (text : Bytes) : List Char → Option (Bytes × List Char)
  | [] => none
  | '\\' :: '\n' :: cs => backquoted quoted text cs
  | '\\' :: c :: cs =>
    if c = '\\' ∨ c = '$' ∨ c.toNat = 96 ∨ (quoted ∧ c = '"') then
      backquoted quoted (c :: text) cs
    else backquoted quoted (c :: '\\' :: text) cs
  | c :: cs => if c.toNat = 96 then some (text.reverse, cs) else backquoted quoted (c :: text) cs

/-- Read a text of its own from its first line to its end. -/
def separately {α : Type} (p : Parser α) (text : Bytes) : Parser α :=
  match p (.ofText text 1) with
  | .ok (a, _) => return a
  | .error refusal => throw refusal

def backquote (whole : Parser Command) (quoted : Bool) : Parser Piece := do
  let s ← get
  match backquoted quoted [] s.rest with
  | none => fail .openBackquote
  | some (text, rest) =>
    let command ← separately whole text
    let read := s.rest.length - rest.length
    set { s with rest, line := s.line + (s.rest.take read).count '\n' }
    return .output command quoted

/-- The name of a parameter in braces, and whether its length is meant. -/
def bracedName : Parser (Option (Bytes × Bool)) := do
  let named (p : Char → Bool) (isLength : Bool) : Parser (Option (Bytes × Bool)) := do
    return some (← takeWhile p, isLength)
  match ← peek with
  | none => return none
  | some c =>
    if isNameStart c then named isNameChar false
    else if isDigit c then named isDigit false
    else if c = '#' then
      let s ← get
      match s.rest.drop 1 with
      | d :: e :: _ =>
        if isNameStart d then let _ ← raw; named isNameChar true
        else if isDigit d then let _ ← raw; named isDigit true
        else if d ≠ '\x7d' ∧ e = '\x7d' ∧ isSpecial d then
          set { s with rest := s.rest.drop 2 }
          return some ([d], true)
        else let _ ← raw; return some (['#'], false)
      | _ => let _ ← raw; return some (['#'], false)
    else if isSpecial c then let _ ← raw; return some ([c], false)
    else return none

/-- What is to be made of the value, up to the word that goes with it. -/
def form : Parser Form := do
  let s ← get
  match s.rest with
  | '%' :: '%' :: rest => set { s with rest }; return .dropEnd true
  | '%' :: rest => set { s with rest }; return .dropEnd false
  | '#' :: '#' :: rest => set { s with rest }; return .dropStart true
  | '#' :: rest => set { s with rest }; return .dropStart false
  | ':' :: '-' :: rest => set { s with rest }; return .fallback true
  | ':' :: '+' :: rest => set { s with rest }; return .alternative true
  | ':' :: '=' :: rest => set { s with rest }; return .assign true
  | ':' :: '?' :: rest => set { s with rest }; return .require true
  | '-' :: rest => set { s with rest }; return .fallback false
  | '+' :: rest => set { s with rest }; return .alternative false
  | '=' :: rest => set { s with rest }; return .assign false
  | '?' :: rest => set { s with rest }; return .require false
  | _ => return .malformed

/-- The scope of the word behind a form.  A pattern to be removed has quotes of
its own. -/
def wordScope (form : Form) (quoted : Bool) : Scope :=
  match form with
  | .dropStart _ | .dropEnd _ => .braces false
  | _ => .braces quoted

/-- A parameter behind its opening brace. -/
def braced (again : Scope → Parser Word) (quoted : Bool) : Parser Piece := do
  match ← bracedName with
  | none => return .parameter [] .malformed (← again (.braces quoted)) quoted
  | some (name, isLength) =>
    if isLength then
      if ← accept '\x7d' then return .parameter name .length [] quoted
      else return .parameter name .malformed (← again (.braces quoted)) quoted
    else if ← accept '\x7d' then return .parameter name .plain [] quoted
    else
      let form ← form
      return .parameter name form (← again (wordScope form quoted)) quoted

/-- What follows a dollar sign. -/
def dollar (group : Parser Command) (again : Scope → Parser Word) (quoted : Bool) :
    Parser Piece := do
  match ← peek with
  | none => return .char '$' quoted
  | some c =>
    if c = '(' then
      let _ ← raw
      if ← accept '(' then return .number (← again (.arithmetic 0)) quoted
      else return .output (← group) quoted
    else if c = '\x7b' then
      let _ ← raw
      braced again quoted
    else if isNameStart c then
      return .parameter (← takeWhile isNameChar) .plain [] quoted
    else if isDigit c || isSpecial c then
      let _ ← raw
      return .parameter [c] .plain [] quoted
    else return .char '$' quoted

/-- Read the pieces of a scope up to its end, which is taken unless it ends a
word.  The pieces that have been read are given last first.  `group` reads
commands up to a closing parenthesis, `whole` those of a text of their own. -/
def pieces (group whole : Parser Command) : Nat → Scope → List Piece → Parser Word
  | 0, _, _ => fail .tooDeep
  | fuel + 1, scope, read => do
    let again (s : Scope) : Parser Word := pieces group whole fuel s []
    let goOn (p : Piece) : Parser Word := pieces group whole fuel scope (p :: read)
    match ← peek with
    | none =>
      match scope.openFault? with
      | some fault => fail fault
      | none => return read.reverse
    | some c =>
      if scope = .word ∧ endsWord c then return read.reverse
      else
        let _ ← raw
        if c = '\\' then
          match (← get).rest with
          | [] => goOn (.char '\\' true)
          | d :: _ =>
            if isEscapable scope d then
              let _ ← raw
              goOn (.char d true)
            else goOn (.char '\\' true)
        else if c = '$' then goOn (← dollar group again scope.quotes)
        else if c.toNat = 96 then goOn (← backquote whole scope.quotes)
        else if c = '\'' ∧ !scope.quotes then
          let text ← singleQuoted
          let quoted := if text.isEmpty then [.blank] else text.map (Piece.char · true)
          pieces group whole fuel scope (quoted.reverse ++ read)
        else if c = '"' then
          match scope with
          | .quotation => return read.reverse
          | .document => goOn (.char c true)
          | .arithmetic _ => pieces group whole fuel scope read
          | _ =>
            let inside ← again .quotation
            let quoted := if inside.isEmpty then [.blank] else inside
            pieces group whole fuel scope (quoted.reverse ++ read)
        else
          match scope, c with
          | .braces _, '\x7d' => return read.reverse
          | .arithmetic depth, '(' =>
            pieces group whole fuel (.arithmetic (depth + 1)) (.char c true :: read)
          | .arithmetic 0, ')' =>
            if ← accept ')' then return read.reverse else goOn (.char c true)
          | .arithmetic (depth + 1), ')' =>
            pieces group whole fuel (.arithmetic depth) (.char c true :: read)
          | _, _ => goOn (.char c scope.quotes)

end Parser
end Shell
end CheckScript
