/-
Lines that hold a pattern.
-/
import CheckScript.Outside.Shell.Program.Search
import CheckScript.Outside.Shell.Regex

namespace CheckScript
namespace Shell
namespace Job

/-- Which matches count: anywhere, of whole words, or of whole lines. -/
inductive GrepExtent where
  | anywhere
  | words
  | lines
deriving DecidableEq, Repr

structure GrepPlan where
  patterns : List Regex
  extent : GrepExtent
  fold : Bool
  inverted : Bool

/-- The matches of a pattern from a place on, without overlap. -/
def grepMatches (p : GrepPlan) (s : Regex.Subject) (r : Regex) :
    Nat → Nat → List (Nat × Nat)
  | 0, _ => []
  | fuel + 1, start =>
    match r.search s start with
    | none => []
    | some m =>
      let next := if m.stop = m.start then m.stop + 1 else m.stop
      let isWhole := !s.wordBefore m.start && !s.wordAt m.stop
      match p.extent with
      | .anywhere => (m.start, m.stop) :: grepMatches p s r fuel next
      | .words =>
        if isWhole then (m.start, m.stop) :: grepMatches p s r fuel next
        else grepMatches p s r fuel (m.start + 1)
      | .lines => []

/-- Whether all of a line fits a pattern. -/
def fitsLine (s : Regex.Subject) (r : Regex) : Bool :=
  (r.ends s [0]).contains s.text.size &&
    (r.walk s 0 [] fun m g => if m = s.text.size then some (m, g) else none).isSome

def subjectOf (p : GrepPlan) (line : Bytes) : Regex.Subject := ⟨List.toArray line, p.fold⟩

def isSelected (p : GrepPlan) (line : Bytes) : Bool :=
  let s := subjectOf p line
  let found := p.patterns.any fun r =>
    match p.extent with
    | .lines => fitsLine s r
    | .anywhere => (r.search s 0).isSome
    | .words => !(grepMatches p s r (line.length + 1) 0).isEmpty
  found != p.inverted

/-- The parts of a line that match, in their order, each with its place. -/
def partsOf (p : GrepPlan) (line : Bytes) : List (Nat × Bytes) :=
  let s := subjectOf p line
  let found := match p.extent with
    | .lines => if p.patterns.any (fitsLine s) then [(0, line.length)] else []
    | _ => p.patterns.flatMap fun r => grepMatches p s r (line.length + 1) 0
  let sorted := found.mergeSort fun a b => a.1 < b.1 || (a.1 == b.1 && b.2 ≤ a.2)
  let apart := sorted.foldl (fun (kept : List (Nat × Nat)) m =>
    match kept with
    | last :: _ => if m.1 < last.2 then kept else m :: kept
    | [] => [m]) []
  (apart.reverse.filter fun m => m.1 < m.2).map fun m => (m.1, Regex.textOf s m.1 m.2)

/-- A line with its number, the number of bytes before it, and whether it is one of
those that are looked for. -/
structure GrepLine where
  number : Nat
  offset : Nat
  text : Bytes
  chosen : Bool

/-- All lines of a text, the first `most` of those that fit being chosen. -/
def grepLines (p : GrepPlan) (number offset : Nat) (most : Option Nat) :
    List Bytes → List GrepLine
  | [] => []
  | l :: ls =>
    let chosen := most != some 0 && isSelected p l
    let left := if chosen then most.map (· - 1) else most
    ⟨number, offset, l, chosen⟩ :: grepLines p (number + 1) (offset + l.length + 1) left ls

/-- The lines to show.  Those around chosen ones are shown as context. -/
def withContext (before after : Nat) (lines : List GrepLine) : List GrepLine :=
  let chosen := (lines.filter (·.chosen)).map (·.number)
  lines.filter fun l => chosen.any fun n => n ≤ l.number + before && l.number ≤ n + after

/-- Put a line of dashes between lines that do not follow one another. -/
def contextRows (divided : Bool) (last : Option Nat) (row : GrepLine → Bytes) :
    List GrepLine → Bytes
  | [] => []
  | l :: ls =>
    let gap := match last with
      | some n => if divided && n + 1 != l.number then "--\n".toList else []
      | none => []
    gap ++ row l ++ contextRows divided (some l.number) row ls

def grepOne (g : Given) (p : GrepPlan) (named : Bool) (name : Bytes) : Job Bool := do
  let shownName := if name = ['-'] then "(standard input)".toList else name
  match ← readOperand name with
  | .error reason =>
    if !g.has 's' then
      complain ((← get).name ++ ": ".toList ++ name ++ ": ".toList ++ reason.toList)
    setStatus 2
    return false
  | .ok b =>
    let ending := if g.has 'z' then '\x00' else '\n'
    let most := (g.value? 'm').bind natural?
    let lines := grepLines p 1 0 most (bareEndedBy ending b)
    let chosen := lines.filter (·.chosen)
    let start := if named then shownName else []
    let found := !chosen.isEmpty
    if g.has 'q' then
      if found then quit 0
    else if g.has 'l' then (if found then printLine shownName else pure ())
    else if g.has 'L' then (if found then pure () else printLine shownName)
    else if g.has 'c' then
      printLine ((if named then start ++ [':'] else []) ++ Bytes.ofNat chosen.length)
    else
      let lead (sign : Char) (number offset : Nat) : Bytes :=
        (if named then start ++ [sign] else []) ++
          (if g.has 'n' then Bytes.ofNat number ++ [sign] else []) ++
          (if g.has 'b' then Bytes.ofNat offset ++ [sign] else [])
      if g.has 'o' then
        if !p.inverted then
          print (chosen.flatMap fun l => (partsOf p l.text).flatMap fun part =>
            lead ':' l.number (l.offset + part.1) ++ part.2 ++ [ending])
      else if found && b.any (·.toNat = 0) && !g.has 'a' && !g.has 'z' then
        complain ((← get).name ++ ": ".toList ++ name ++ ": binary file matches".toList)
      else
        let number (letter : Char) : Option Nat :=
          ((g.value? letter).orElse fun _ => g.value? 'C').bind natural?
        let before := number 'B'
        let after := number 'A'
        let rows := withContext (before.getD 0) (after.getD 0) lines
        print (contextRows (before.isSome || after.isSome) none
          (fun l =>
            lead (if l.chosen then ':' else '-') l.number l.offset ++ l.text ++ [ending]) rows)
    return found

def grepAll (g : Given) (p : GrepPlan) (named found : Bool) : List Bytes → Job Bool
  | [] => return found
  | name :: names => do
    let one ← grepOne g p named name
    grepAll g p named (found || one) names

/-- The files below the operands, where directories are searched as well. -/
def grepFiles (g : Given) : Job (List Bytes) := do
  if !(g.has 'r' || g.has 'R') then return sources g
  else
    let starts := if g.operands.isEmpty then [['.']] else g.operands
    let f ← files
    let shown (path : Bytes) : Bytes := if g.operands.isEmpty then path.drop 2 else path
    return starts.flatMap fun start =>
      match f.find (pathOf start) with
      | .ok node => (Search.walk Search.Bounds.all 0 maxDepth start node).filterMap fun f =>
          if f.node.isDirectory then none else some (shown f.path)
      | .error _ => [start]

/-- Words about colours, which are not shown. -/
def isGrepColour (w : Bytes) : Bool :=
  "--color".toList.isPrefixOf w || "--colour".toList.isPrefixOf w

/-- Give up with a reminder of how to call the program. -/
def grepUsage {α : Type} : Job α := do
  complain ("Usage: ".toList ++ (← get).name ++ " [OPTION]... PATTERNS [FILE]...".toList)
  complain ("Try '".toList ++ (← get).name ++ " --help' for more information.".toList)
  quit 2

def grepOptions (long : List (String × Char)) : Job Given := do
  let args := (← get).arguments.filter (! isGrepColour ·)
  match read ⟨"EFGPivcnlLqsowxhHrRayzUb", "efmABC", long⟩ false args.length ⟨[], []⟩ args with
  | .ok g => return g
  | .error fault =>
    warn 2 fault
    grepUsage

def grepWith (kind : Option Char) : Job Unit := do
  let g ← grepOptions [("extended-regexp", 'E'),
    ("fixed-strings", 'F'), ("ignore-case", 'i'), ("invert-match", 'v'), ("count", 'c'),
    ("line-number", 'n'), ("files-with-matches", 'l'), ("quiet", 'q'), ("silent", 'q'),
    ("only-matching", 'o'), ("word-regexp", 'w'), ("line-regexp", 'x'), ("regexp", 'e'),
    ("max-count", 'm'), ("no-messages", 's'), ("no-filename", 'h'), ("with-filename", 'H'),
    ("line-buffered", 'U'), ("recursive", 'r'), ("text", 'a'), ("byte-offset", 'b'),
    ("null-data", 'z'), ("perl-regexp", 'P'), ("after-context", 'A'), ("before-context", 'B'),
    ("context", 'C'), ("file", 'f'), ("files-without-match", 'L')]
  match g.value? 'm' with
  | some n => if (natural? n).isNone then giveUp 2 "invalid max count".toList
  | none => pure ()
  let (texts, operands) ← match g.values 'e', g.values 'f', g.operands with
    | [], [], [] => grepUsage
    | [], [], pattern :: rest => pure ([pattern], rest)
    | es, fs, rest => do
      let read ← fs.mapM fun name => do
        match ← readOperand name with
        | .ok b => pure (bareLines b)
        | .error reason => giveUp 2 (name ++ ": ".toList ++ reason.toList)
      pure (es ++ read.flatten, rest)
  let style := (g.options.reverse.find? fun o => "EFGP".toList.contains o.1).map (·.1)
  let style := (style.orElse fun _ => kind).getD 'G'
  let form : Regex.Style := ⟨style != 'G', true, style == 'P'⟩
  let patterns ← (texts.flatMap (Text.cut '\n')).mapM fun b => do
    if style = 'F' then pure (Regex.literal b)
    else
      match Regex.read form b with
      | .ok r =>
        Regex.strays form b |> eachOf fun sign => do
          complain ((← get).name ++ s!": warning: {sign} at start of expression".toList)
        pure r
      | .error fault => giveUp 2 fault.message.toList
  let plan : GrepPlan :=
    { patterns, fold := g.has 'i' || g.has 'y', inverted := g.has 'v'
      extent := if g.has 'x' then .lines else if g.has 'w' then .words else .anywhere }
  let g := { g with operands }
  let names ← grepFiles g
  let named := (1 < names.length || g.has 'H' || g.has 'r' || g.has 'R') && !g.has 'h'
  if g.has 'U' && names == [['-']] && (← get).inputOpen then
    match ← readNow with
    | .error reason => giveUp 2 ("(standard input): ".toList ++ reason.toList)
    | .ok b =>
      let complete := (fullLines b).filter fun l => l.getLast? = some '\n'
      printNow (complete.flatMap fun l => if isSelected plan l.dropLast then l else [])
      throw .waiting
  let found ← grepAll g plan named false names
  let failed := (← get).status = 2
  if failed && !(g.has 'q' && found) then quit 2
  else quit (if found then 0 else 1)

def grep : Job Unit := grepWith none

def egrep : Job Unit := grepWith (some 'E')

def fgrep : Job Unit := grepWith (some 'F')

end Job
end Shell
end CheckScript
