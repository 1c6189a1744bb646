/-
Reading commands.
-/
import CheckScript.Outside.Shell.Parser.Word
import CheckScript.Text.Lines

namespace CheckScript
namespace Shell
namespace Parser

/-! ## Tokens -/

/-- Drop blanks and a comment. -/
def skipBlanks : Parser Unit := do
  let _ ← peek
  modify fun s => { s with rest := s.rest.dropWhile fun c => c == ' ' || c == '\t' }

def skipComment : Parser Unit := do
  if (← peek) = some '#' then
    modify fun s => { s with rest := s.rest.dropWhile (· != '\n') }

/-- Blanks and joined lines may follow one another. -/
def skipGap : Nat → Parser Unit
  | 0 => return ()
  | fuel + 1 => do
    skipBlanks
    match ← peek with
    | some ' ' | some '\t' => skipGap fuel
    | _ => skipComment

/-- The sign behind a redirection sign. -/
def redirectionToken (stream : Option Nat) : Parser Token := do
  let token (opening : Opening) : Token := .redirection stream opening false
  let isInput := (← next) = some '<'
  if isInput then
    if ← accept '<' then
      let strip ← accept '-'
      return .redirection stream .document strip
    else if ← accept '&' then return .redirection (some (stream.getD 0)) .duplicate false
    else if ← accept '>' then return .redirection (some (stream.getD 0)) .readWrite false
    else return token .read
  else if ← accept '>' then return token .append
  else if ← accept '&' then return token .duplicate
  else if ← accept '|' then return token .replace
  else return token .write

/-- The next token.  A digit right before a redirection sign belongs to it. -/
def lexToken (word : Parser Word) : Parser Token := do
  skipGap (← get).bound
  match ← peek with
  | none => return .endOfText
  | some c =>
    let sign (t : Token) : Parser Token := do
      let _ ← raw
      return t
    if c = '\n' then sign .newline
    else if c = '(' then sign .openParenthesis
    else if c = ')' then sign .closeParenthesis
    else if c = ';' then
      let _ ← raw
      return if ← accept ';' then .endArm else .semicolon
    else if c = '&' then
      let _ ← raw
      return if ← accept '&' then .andIf else .ampersand
    else if c = '|' then
      let _ ← raw
      return if ← accept '|' then .orIf else .pipe
    else if c = '<' ∨ c = '>' then redirectionToken none
    else
      match (← get).rest with
      | d :: '<' :: _ | d :: '>' :: _ =>
        if isDigit d then
          let _ ← raw
          redirectionToken (some (d.toNat - 48))
        else return .word (← word)
      | _ => return .word (← word)

def lookAhead (word : Parser Word) : Parser Token := do
  match (← get).ahead with
  | some t => return t
  | none =>
    let t ← lexToken word
    modify fun s => { s with ahead := some t }
    return t

/-- Take the token that was looked at. -/
def drop : Parser Unit := modify fun s => { s with ahead := none }

def take (word : Parser Word) : Parser Token := do
  let t ← lookAhead word
  drop
  return t

def unexpected {α : Type} (t : Token) (expected : Option String) : Parser α :=
  fail (.unexpected t.shown expected)

def skipNewlines (word : Parser Word) : Nat → Parser Unit
  | 0 => return ()
  | fuel + 1 => do
    match ← lookAhead word with
    | .newline =>
      drop
      skipNewlines word fuel
    | _ => return ()

/-- Skip newlines, as many as there are. -/
def skipLines (word : Parser Word) : Parser Unit := do
  skipNewlines word (← get).bound

def expectKeyword (word : Parser Word) (k : String) : Parser Unit := do
  let t ← take word
  if t.isKeyword k then return () else unexpected t (some s!"\"{k}\"")

/-! ## Documents -/

/-- The text of a document up to the line of its end mark, the number of lines
read, and the lines that follow.  A document without its mark goes on to the end
of the text. -/
def documentText (stripTabs : Bool) (mark : Bytes) (lines : Nat) :
    List Bytes → Bytes × Nat × List Bytes
  | [] => ([], lines, [])
  | l :: ls =>
    let line := if stripTabs then l.dropWhile (· == '\t') else l
    if line == mark then ([], lines + 1, ls)
    else
      let r := documentText stripTabs mark (lines + 1) ls
      let ending := if ls.isEmpty then [] else ['\n']
      (line ++ ending ++ r.1, r.2)

/-- Take the document out of the text that follows the line of its mark. -/
def document (group whole : Parser Command) (fuel : Nat) (mark : Word) (stripTabs : Bool) :
    Parser Word := do
  let s ← get
  let markText := mark.filterMap fun
    | .char c _ => some c
    | _ => none
  let line := s.rest.takeWhile (· != '\n')
  match s.rest.drop line.length with
  | [] => return []
  | _ :: below =>
    let (text, lines, rest) := documentText stripTabs markText 0 (Text.cut '\n' below)
    set { s with rest := line ++ '\n' :: Bytes.join ['\n'] rest, owed := s.owed + lines }
    if (bare? mark).isNone then return text.map (Piece.char · true)
    else separately (pieces group whole fuel .document []) text

/-! ## Commands -/

/-- How a list of commands ends: at the end of its line, before a token that only
stands behind a list, or there too but only when something has come before. -/
inductive Extent where
  | line
  | any
  | some
deriving DecidableEq, Repr

/-- Streams are those of input or output unless they are named. -/
def streamOf (stream : Option Nat) (opening : Opening) : Nat :=
  stream.getD (match opening with
    | .read | .readWrite | .document => 0
    | _ => 1)

/-- Builtins after which a function cannot be named. -/
def specialBuiltins : List String :=
  [".", ":", "break", "continue", "eval", "exec", "exit", "export", "local", "readonly", "return",
    "set", "shift", "times", "trap", "unset"]

/-- What the parts of a command are read with. -/
structure Parts where
  word : Parser Word
  list : Extent → Parser Command
  command : Parser Command
  document : Word → Bool → Parser Word

namespace Parts

/-- The target of a redirection. -/
def redirection (p : Parts) (stream : Option Nat) (opening : Opening) (stripTabs : Bool) :
    Parser Redirection := do
  match ← take p.word with
  | .word w =>
    let target ← if opening = .document then p.document w stripTabs else pure w
    return .mk (streamOf stream opening) opening target
  | t => unexpected t none

def redirections (p : Parts) (read : List Redirection) : Nat → Parser (List Redirection)
  | 0 => fail .tooDeep
  | fuel + 1 => do
    match ← lookAhead p.word with
    | .redirection stream opening strip =>
      drop
      let r ← p.redirection stream opening strip
      redirections p (r :: read) fuel
    | _ => return read.reverse

/-- The body of a function whose name has been read. -/
def function (p : Parts) (name : Word) : Parser Command := do
  match ← take p.word with
  | .closeParenthesis =>
    match bare? name with
    | some n =>
      if isName n ∧ !specialBuiltins.contains (String.ofList n) then
        skipLines p.word
        return .define n (← p.command)
      else fail .functionName
    | none => fail .functionName
  | t => unexpected t (some "\")\"")

/-- A command of assignments, words and redirections, each given last first. -/
def simpleOf (line : Nat) (assignments : List (Bytes × Word)) (words : List Word)
    (redirections : List Redirection) : Command :=
  .simple line assignments.reverse words.reverse redirections.reverse

/-- Read the rest of a command of which some parts have been read, each given last
first. -/
def simple (p : Parts) (line : Nat) (assignments : List (Bytes × Word)) (words : List Word)
    (redirections : List Redirection) : Nat → Parser Command
  | 0 => fail .tooDeep
  | fuel + 1 => do
    match ← lookAhead p.word with
    | .word w =>
      drop
      match words, assignment? w with
      | [], some a => simple p line (a :: assignments) words redirections fuel
      | _, _ => simple p line assignments (w :: words) redirections fuel
    | .redirection stream opening strip =>
      drop
      let r ← p.redirection stream opening strip
      simple p line assignments words (r :: redirections) fuel
    | .openParenthesis =>
      match assignments, words, redirections with
      | [], [name], [] =>
        drop
        p.function name
      | _, _, _ => return simpleOf line assignments words redirections
    | _ => return simpleOf line assignments words redirections

/-- The branches behind a condition. -/
def branches (p : Parts) : Nat → Parser Command
  | 0 => fail .tooDeep
  | fuel + 1 => do
    let condition ← p.list .some
    expectKeyword p.word "then"
    let body ← p.list .some
    let t ← lookAhead p.word
    if t.isKeyword "elif" then
      drop
      return .branch condition body (← branches p fuel)
    else if t.isKeyword "else" then
      drop
      return .branch condition body (← p.list .some)
    else return .branch condition body .nothing

def loop (p : Parts) (wanted : Bool) : Parser Command := do
  let condition ← p.list .some
  expectKeyword p.word "do"
  return .loop wanted condition (← p.list .some)

def loopWords (p : Parts) (read : List Word) : Nat → Parser (List Word)
  | 0 => fail .tooDeep
  | fuel + 1 => do
    match ← take p.word with
    | .word w => loopWords p (w :: read) fuel
    | .newline | .semicolon => return read.reverse
    | t => unexpected t none

def each (p : Parts) (line fuel : Nat) : Parser Command := do
  let name ← match ← take p.word with
    | .word w =>
      match bare? w with
      | some n => if isName n then pure n else fail .loopName
      | none => fail .loopName
    | _ => fail .loopName
  skipLines p.word
  let t ← lookAhead p.word
  let words ←
    if t.isKeyword "in" then
      drop
      pure (Option.some (← loopWords p [] fuel))
    else
      match t with
      | .semicolon => drop; pure none
      | _ => pure none
  skipLines p.word
  expectKeyword p.word "do"
  return .each line name words (← p.list .some)

/-- The patterns of an arm and the parenthesis behind them. -/
def patterns (p : Parts) (read : List Word) : Nat → Parser (List Word)
  | 0 => fail .tooDeep
  | fuel + 1 => do
    let pattern := match ← take p.word with
      | .word w => w
      | _ => []
    match ← take p.word with
    | .pipe => patterns p (pattern :: read) fuel
    | .closeParenthesis => return (pattern :: read).reverse
    | .word _ => fail (.unexpected "word" (some "\")\""))
    | t => unexpected t (some "\")\"")

/-- Arms up to the keyword that ends them, which is taken. -/
def arms (p : Parts) (read : List (List Word × Command)) :
    Nat → Parser (List (List Word × Command))
  | 0 => fail .tooDeep
  | fuel + 1 => do
    skipLines p.word
    let t ← lookAhead p.word
    if t.isKeyword "esac" then
      drop
      return read.reverse
    else
      match t with
      | .openParenthesis => drop
      | _ => pure ()
      let patterns ← patterns p [] fuel
      let body ← p.list .any
      let read := (patterns, body) :: read
      skipLines p.word
      match ← take p.word with
      | .endArm => arms p read fuel
      | t => if t.isKeyword "esac" then return read.reverse else unexpected t (some "\";;\"")

def choice (p : Parts) (line fuel : Nat) : Parser Command := do
  match ← take p.word with
  | .word subject =>
    skipLines p.word
    expectKeyword p.word "in"
    return .choice line subject (← p.arms [] fuel)
  | t => unexpected t (some "word")

/-- A command that a keyword begins, and the keyword that ends it. -/
def compound (p : Parts) (line fuel : Nat) (k : String) :
    Parser (Option (Command × Option String)) := do
  let ended (c : Command) (by_ : String) : Option (Command × Option String) :=
    some (c, some by_)
  match k with
  | "if" => drop; return ended (← p.branches fuel) "fi"
  | "while" => drop; return ended (← p.loop true) "done"
  | "until" => drop; return ended (← p.loop false) "done"
  | "for" => drop; return ended (← p.each line fuel) "done"
  | "case" => drop; return some (← p.choice line fuel, none)
  | "\x7b" => drop; return ended (← p.list .some) "\x7d"
  | _ => return none

/-- One command with its redirections. -/
def one (p : Parts) (fuel : Nat) : Parser Command := do
  let line := (← get).line
  let t ← lookAhead p.word
  let redirected (c : Command) : Parser Command := do
    match ← p.redirections [] fuel with
    | [] => return c
    | rs => return .redirected line c rs
  match t with
  | .openParenthesis =>
    drop
    let body ← p.list .some
    match ← take p.word with
    | .closeParenthesis => return .subshell line body (← p.redirections [] fuel)
    | t => unexpected t (some "\")\"")
  | .redirection .. => p.simple (← get).line [] [] [] fuel
  | .word _ =>
    match t.keyword? with
    | none => p.simple (← get).line [] [] [] fuel
    | some k =>
      match ← p.compound line fuel k with
      | none => unexpected t none
      | some (c, none) => redirected c
      | some (c, some k) =>
        expectKeyword p.word k
        redirected c
  | t => unexpected t none

def pipelineRest (p : Parts) (read : List Command) : Nat → Parser (List Command)
  | 0 => fail .tooDeep
  | fuel + 1 => do
    match ← lookAhead p.word with
    | .pipe =>
      drop
      skipLines p.word
      let c ← p.command
      pipelineRest p (c :: read) fuel
    | _ => return read.reverse

def pipeline (p : Parts) (fuel : Nat) : Parser Command := do
  let t ← lookAhead p.word
  let isNegated := t.isKeyword "!"
  if isNegated then drop
  let first ← p.command
  let command ← match ← p.pipelineRest [first] fuel with
    | [c] => pure c
    | cs => pure (.pipeline cs)
  return if isNegated then .negation command else command

/-- Pipelines behind the first one, joined from the left. -/
def andOr (p : Parts) (sofar : Command) : Nat → Parser Command
  | 0 => fail .tooDeep
  | fuel + 1 => do
    match ← lookAhead p.word with
    | .andIf =>
      drop
      skipLines p.word
      let c ← p.pipeline fuel
      andOr p (.conjunction sofar c) fuel
    | .orIf =>
      drop
      skipLines p.word
      let c ← p.pipeline fuel
      andOr p (.disjunction sofar c) fuel
    | _ => return sofar

/-- One command after another, up to the end of the extent. -/
def listFrom (p : Parts) (extent : Extent) (sofar : Option Command) : Nat → Parser Command
  | 0 => fail .tooDeep
  | fuel + 1 => do
    if extent ≠ .line then skipLines p.word
    let t ← lookAhead p.word
    let done : Parser Command := return sofar.getD .nothing
    match t with
    | .endOfText => done
    | .newline =>
      drop
      done
    | t =>
      if (extent = .any ∨ (extent = .some ∧ sofar.isSome)) ∧ t.closesList then done
      else
        let first ← p.pipeline fuel
        let c ← p.andOr first fuel
        let t ← lookAhead p.word
        let c := match t with
          | .ampersand => .background c
          | _ => c
        let sofar := match sofar with
          | none => c
          | some before => .sequence before c
        match t with
        | .endOfText => return sofar
        | .newline => listFrom p extent (some sofar) fuel
        | .ampersand | .semicolon =>
          drop
          listFrom p extent (some sofar) fuel
        | t => if extent = .line then unexpected t none else return sofar

end Parts

/-- The parts of commands that are nested no deeper than the fuel. -/
def parts : Nat → Parts
  | 0 => { word := fail .tooDeep, list := fun _ => fail .tooDeep, command := fail .tooDeep
           document := fun _ _ => fail .tooDeep }
  | fuel + 1 =>
    let whole : Parser Command := fun s => (parts fuel).listFrom .any none s.bound s
    let group : Parser Command := do
      let c ← whole
      match ← fun s => take (parts fuel).word s with
      | .closeParenthesis => return c
      | t => unexpected t (some "\")\"")
    { word := fun s => pieces group whole s.bound .word [] s
      list := fun extent s => (parts fuel).listFrom extent none s.bound s
      command := fun s => (parts fuel).one s.bound s
      document := fun mark strip s => document group whole s.bound mark strip s }

end Parser

/-- Commands may be nested as deep as this. -/
def maxNesting : Nat := 20000

/-- The commands on the next line of a text, and what is left behind them. -/
def readLine (r : Reading) : Except Refusal (Command × Reading) :=
  let p := Parser.parts maxNesting
  (p.listFrom .line none r.bound).run r

end Shell
end CheckScript
