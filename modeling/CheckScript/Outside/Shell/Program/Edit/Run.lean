/-
Editing a text line by line, as a script says.
-/
import CheckScript.Outside.Shell.Program.Edit.Script
import CheckScript.Outside.Shell.Program.FileWork

namespace CheckScript
namespace Shell
namespace Edit

/-- What is added behind a line once the script is through with it. -/
inductive Added where
  | text (b : Bytes)
  | file (name : Bytes)

/-- A text while it is edited.  `more` tells that more may come behind the lines
that are left, `ending` is what ends a line, and `unended` tells that the last line
written has no newline yet. -/
structure State where
  ending : Char
  left : List Bytes
  more : Bool
  space : Bytes
  ended : Bool
  hold : Bytes
  line : Nat
  ranges : List (Nat × Option Nat)
  replaced : Bool
  lastRegex : Option Regex
  added : List Added
  written : List Bytes
  unended : Bool
  filed : List (Bytes × Bytes)

def State.start (ending : Char) (lines : List Bytes) (more : Bool) : State :=
  { ending, left := lines, more, space := [], ended := true, hold := [], line := 0, ranges := []
    replaced := false, lastRegex := none, added := [], written := [], unended := false
    filed := [] }

/-- Why editing stops before the end of the text. -/
inductive Halt where
  | starved
  | quit (status : Nat)
  | noRegex
  | exhausted

/-- A script with its options. -/
structure Plan where
  steps : Array EditStep
  quiet : Bool
  files : Bytes → Bytes

abbrev Work := ExceptT Halt (StateM State)

/-! ## Output -/

def writeRaw (b : Bytes) (ended : Bool) : Work Unit :=
  modify fun s => { s with
    written := (b ++ if ended then [s.ending] else []) ::
      (if s.unended then [s.ending] else []) :: s.written
    unended := !ended }

def printSpace : Work Unit := do
  let s ← get
  writeRaw s.space s.ended

def writeText (b : Bytes) : Work Unit :=
  if b.isEmpty then return () else writeRaw (b.dropLast) true

/-- Write what has been added behind the line. -/
def dumpAdded (p : Plan) : List Added → Work Unit
  | [] => modify fun s => { s with added := [] }
  | .text b :: rest => do
    writeText b
    dumpAdded p rest
  | .file name :: rest => do
    let content := p.files name
    if !content.isEmpty then
      modify fun s => { s with
        written := content :: (if s.unended then [s.ending] else []) :: s.written
        unended := false }
    dumpAdded p rest

def file (name line : Bytes) : Work Unit := do
  if String.ofList name == "/dev/stdout" then writeRaw line true
  else modify fun s => { s with filed := (name, line ++ ['\n']) :: s.filed }

/-! ## Lines -/

/-- Whether the line is the last one. -/
def atEnd : Work Bool := do
  let s ← get
  if s.left.isEmpty then (if s.more then throw .starved else return true) else return false

/-- Take the next line, if there is one. -/
def readLine : Work Bool := do
  let s ← get
  match s.left with
  | [] => if s.more then throw .starved else return false
  | l :: left =>
    let ended := l.getLast? = some s.ending
    set { s with left, space := if ended then l.dropLast else l, ended, line := s.line + 1
                 replaced := s.replaced }
    return true

/-- Add the next line to this one behind a newline. -/
def readMore : Work Bool := do
  let before := (← get).space
  if ← readLine then
    modify fun s => { s with space := before ++ s.ending :: s.space }
    return true
  else return false

def regexOf (r : Option Regex) : Work Regex := do
  match r with
  | some r =>
    modify fun s => { s with lastRegex := some r }
    return r
  | none =>
    match (← get).lastRegex with
    | some r => return r
    | none => throw .noRegex

def fits (a : EditAddress) : Work Bool := do
  let s ← get
  match a with
  | .line n => return s.line == n
  | .last => atEnd
  | .stepped first step =>
    return if step = 0 then s.line == first else first ≤ s.line && (s.line - first) % step == 0
  | .matching r fold =>
    let regex ← regexOf r
    return (regex.search ⟨List.toArray s.space, fold⟩ 0).isSome

def rangeOf (index : Nat) : Work (Option (Option Nat)) :=
  return ((← get).ranges.find? fun r => r.1 == index).map (·.2)

def setRange (index : Nat) (r : Option (Option Nat)) : Work Unit :=
  modify fun s =>
    let others := s.ranges.filter fun r => r.1 != index
    { s with ranges := r.toList.map (fun stop => (index, stop)) ++ others }

/-- Begin a range on this line, unless it is over at once. -/
def beginRange (index line : Nat) (e : EditEnd) : Work Bool := do
  let upTo (stop : Nat) : Work Bool := do
    if line < stop then setRange index (some (some stop))
    return true
  match e with
  | .address (.line n) => upTo n
  | .after n => upTo (line + n)
  | .multiple n => upTo (if n = 0 then line else (line / n + 1) * n)
  | .address _ =>
    setRange index (some none)
    return true

/-- Whether a step is for this line. -/
def isFor (index : Nat) (s : EditStep) : Work Bool := do
  let line := (← get).line
  match s.lines with
  | .everywhere => return true
  | .one a => fits a
  | .range a e =>
    let opened ← rangeOf index
    match opened, e with
    | some (some stop), _ =>
      if stop ≤ line then setRange index none
      if line ≤ stop then return true
      else if ← fits a then beginRange index line e
      else return false
    | some none, .address b =>
      if ← fits b then setRange index none
      return true
    | some none, _ => return true
    | none, _ => if ← fits a then beginRange index line e else return false

/-- Ranges from line zero on are open before the first line. -/
def openRanges (steps : List EditStep) : List (Nat × Option Nat) :=
  steps.zipIdx.filterMap fun s =>
    match s.1.lines with
    | .range (.line 0) _ => some (s.2, none)
    | _ => none

/-! ## Replacing -/

/-- Letters in the case that the latest sign asks for: one for the next letter, and
one for all that follow. -/
def cased (next : Option Char) (all : Option Char) (b : Bytes) : Bytes :=
  let change (letter : Option Char) (c : Char) : Char :=
    match letter with
    | some 'U' | some 'u' => Regex.Subject.upper c
    | some 'L' | some 'l' => Regex.Subject.lower c
    | _ => c
  match b with
  | [] => []
  | c :: cs => change (next.orElse fun _ => all) c :: cs.map (change all)

def expand (s : Regex.Subject) (m : Regex.Match) (next all : Option Char) :
    List EditPiece → Bytes
  | [] => []
  | .case letter :: ps =>
    if letter = 'u' ∨ letter = 'l' then expand s m (some letter) all ps
    else expand s m none (if letter = 'E' then none else some letter) ps
  | .text b :: ps =>
    cased next all b ++ expand s m (if b.isEmpty then next else none) all ps
  | .group n :: ps =>
    let b := if n = 0 then Regex.textOf s m.start m.stop
      else match m.groups.find? fun g => g.1 == n with
        | some g => Regex.textOf s g.2.1 g.2.2
        | none => []
    cased next all b ++ expand s m (if b.isEmpty then next else none) all ps

/-- Replace matches from a place on; `count` are behind, and `last` is where the
one before ended.  A match of nothing right behind another one is none. -/
def replaceFrom (s : Regex.Subject) (r : Regex) (sub : Substitution) (count : Nat)
    (last : Option Nat) (start : Nat) (done : List Bytes) : Nat → List Bytes × Bool
  | 0 => (done, false)
  | fuel + 1 =>
    let rest := Regex.textOf s start s.text.size
    match r.search s start with
    | none => (rest :: done, false)
    | some m =>
      let before := Regex.textOf s start m.start
      let isBlank := m.start = m.stop
      let following := (s.text.extract m.stop (m.stop + 1)).toList
      if isBlank ∧ last = some m.start then
        if s.text.size ≤ m.stop then (before :: done, false)
        else replaceFrom s r sub count none (m.stop + 1) (following :: before :: done) fuel
      else
        let count := count + 1
        let isWanted := max sub.number 1 ≤ count
        let new := if isWanted then expand s m none none sub.pieces
          else Regex.textOf s m.start m.stop
        if isWanted && !sub.all then
          (Regex.textOf s m.stop s.text.size :: new :: before :: done, true)
        else if isBlank then
          if s.text.size ≤ m.stop then (new :: before :: done, isWanted)
          else
            let r := replaceFrom s r sub count none (m.stop + 1)
              (following :: new :: before :: done) fuel
            (r.1, r.2 || isWanted)
        else
          let r := replaceFrom s r sub count (some m.stop) m.stop (new :: before :: done) fuel
          (r.1, r.2 || isWanted)

def substitute (sub : Substitution) : Work Unit := do
  let regex ← regexOf sub.regex
  let s ← get
  let subject : Regex.Subject := ⟨List.toArray s.space, sub.fold⟩
  let r := replaceFrom subject regex sub 0 none 0 [] (s.space.length + 2)
  if r.2 then
    set { s with space := r.1.reverse.flatten, replaced := true }
    if sub.prints then printSpace
    match sub.file with
    | some name => file name (← get).space
    | none => return ()

/-! ## Steps -/

/-- How the steps for a line end. -/
inductive Flow where
  | through
  | deleted
  | again

def escaped (c : Char) : Bytes :=
  let n := c.toNat
  match c with
  | '\\' => ['\\', '\\']
  | '\x07' => ['\\', 'a']
  | '\x08' => ['\\', 'b']
  | '\t' => ['\\', 't']
  | '\n' => ['\\', 'n']
  | '\x0b' => ['\\', 'v']
  | '\x0c' => ['\\', 'f']
  | '\r' => ['\\', 'r']
  | c =>
    if ' ' ≤ c ∧ c ≤ '~' then [c]
    else ['\\', Char.ofNat (48 + n / 64), Char.ofNat (48 + n / 8 % 8), Char.ofNat (48 + n % 8)]

/-- Lines of 69 characters with a backslash behind all but the last. -/
def wrapped (width : Nat) (line : Bytes) : List Bytes → Bytes
  | [] => line ++ ['$']
  | e :: es =>
    if width < line.length + e.length then line ++ ['\\', '\n'] ++ wrapped width e es
    else wrapped width (line ++ e) es

def labelIndex (p : Plan) (name : Bytes) : Nat :=
  (p.steps.findIdx? fun s => match s.op with
    | .label n => n == name
    | _ => false).getD p.steps.size

def quitWith (p : Plan) (status : Nat) : Work Flow := do
  if !p.quiet then printSpace
  dumpAdded p (← get).added.reverse
  throw (.quit status)

def firstLine (s : State) : Bytes := s.space.takeWhile (· != s.ending)

/-- Carry out the steps from one on. -/
def execute (p : Plan) (index : Nat) : Nat → Work Flow
  | 0 => throw .exhausted
  | fuel + 1 => do
    match p.steps[index]? with
    | none => return .through
    | some step =>
      let chosen ← isFor index step
      let goOn : Work Flow := execute p (index + 1) fuel
      if chosen == step.negated then
        match step.op with
        | .block stop => execute p stop fuel
        | _ => goOn
      else
        match step.op with
        | .block _ | .noop | .label _ => goOn
        | .jump condition name =>
          let s ← get
          let isTaken := match condition with
            | none => true
            | some wanted => s.replaced == wanted
          if condition.isSome then set { s with replaced := false }
          if isTaken then
            execute p (if name.isEmpty then p.steps.size else labelIndex p name) fuel
          else goOn
        | .insert b => writeText b; goOn
        | .append b => modify fun s => { s with added := .text b :: s.added }; goOn
        | .readFile name => modify fun s => { s with added := .file name :: s.added }; goOn
        | .change b =>
          if step.negated || (← rangeOf index).isNone then writeText b
          return .deleted
        | .delete => return .deleted
        | .deleteFirst =>
          let s ← get
          if s.space.contains s.ending then
            set { s with space := s.space.drop ((firstLine s).length + 1) }
            return .again
          else return .deleted
        | .print => printSpace; goOn
        | .printFirst => writeRaw (firstLine (← get)) true; goOn
        | .printEscaped => writeRaw (wrapped 69 [] ((← get).space.map escaped)) true; goOn
        | .number => writeRaw (Bytes.ofNat (← get).line) true; goOn
        | .next =>
          if ← atEnd then quitWith p 0
          else
            if !p.quiet then printSpace
            dumpAdded p (← get).added.reverse
            let _ ← readLine
            goOn
        | .joinNext =>
          if ← atEnd then quitWith p 0
          else
            dumpAdded p (← get).added.reverse
            let _ ← readMore
            goOn
        | .hold => modify fun s => { s with hold := s.space }; goOn
        | .holdMore => modify fun s => { s with hold := s.hold ++ s.ending :: s.space }; goOn
        | .restore => modify fun s => { s with space := s.hold }; goOn
        | .restoreMore => modify fun s => { s with space := s.space ++ s.ending :: s.hold }; goOn
        | .exchange => modify fun s => { s with space := s.hold, hold := s.space }; goOn
        | .clear => modify fun s => { s with space := [] }; goOn
        | .quit status => quitWith p status
        | .quitQuietly status => throw (.quit status)
        | .writeFile name => file name (← get).space; goOn
        | .writeFirst name => file name (firstLine (← get)); goOn
        | .substitute sub => substitute sub; goOn
        | .recode pairs =>
          modify fun s => { s with
            space := s.space.map fun c => ((pairs.find? fun q => q.1 == c).map (·.2)).getD c }
          goOn

/-- One line after another.  A line that is worked on again is not read anew. -/
def cycles (p : Plan) (steps : Nat) (anew : Bool) : Nat → Work Unit
  | 0 => throw .exhausted
  | fuel + 1 => do
    let there ← if anew then readLine else pure true
    if there then
      if anew then modify fun s => { s with replaced := false }
      let flow ← execute p 0 steps
      match flow with
      | .through => if !p.quiet then printSpace
      | _ => pure ()
      dumpAdded p (← get).added.reverse
      match flow with
      | .again => cycles p steps false fuel
      | _ => cycles p steps true fuel

/-- The most steps for one line. -/
def maxSteps : Nat := 100000

def run (p : Plan) (s : State) : Except Halt Unit × State :=
  let size := s.left.foldl (fun n l => n + l.length + 1) 1
  (cycles p maxSteps true (2 * size + 2)).run.run s

end Edit

namespace Job

/-! ## sed -/

/-- Take an option with an ending for copies out of the arguments: the letter may
follow others in a word, and the ending follows the letter. -/
def takeInPlace (flags : String) : List Bytes → Option Bytes × List Bytes
  | [] => (none, [])
  | ['-', '-'] :: rest => (none, ['-', '-'] :: rest)
  | w :: rest =>
    let r := takeInPlace flags rest
    match w with
    | '-' :: '-' :: name =>
      if name.takeWhile (· != '=') == "in-place".toList then
        (some (name.drop 9), r.2)
      else (r.1, w :: r.2)
    | '-' :: letters =>
      let front := letters.takeWhile fun c => c != 'i' && flags.toList.contains c
      match letters.drop front.length with
      | 'i' :: ending => (some ending, if front.isEmpty then r.2 else ('-' :: front) :: r.2)
      | _ => (r.1, w :: r.2)
    | w => (r.1, w :: r.2)

/-- Where a fault lies: the number of the expression, and the characters in it. -/
def locateFault (count : Nat) (number : Nat) : List Bytes → Nat × Nat
  | [] => (number, count)
  | [_] => (number, count)
  | b :: bs => if count ≤ b.length then (number, count)
    else locateFault (count - b.length - 1) (number + 1) bs

/-- The script that options and operands give, and the operands left. -/
def editScript (g : Given) : Job (List Bytes × List Bytes) := do
  let parts ← (g.options.filter fun o => o.1 == 'e' || o.1 == 'f').mapM fun o => do
    if o.1 = 'e' then pure o.2
    else
      match ← readOperand o.2 with
      | .ok b => pure (if b.getLast? = some '\n' then b.dropLast else b)
      | .error reason =>
        giveUp 4 ("couldn't open file ".toList ++ o.2 ++ ": ".toList ++ reason.toList)
  match parts, g.operands with
  | [], [] =>
    complain "Usage: sed [OPTION]... \x7bscript-only-if-no-other-script\x7d [input-file]...".toList
    quit 1
  | [], script :: rest => return ([script], rest)
  | parts, rest => return (parts, rest)

/-- Give up on a script that cannot be read. -/
def refuseScript {α : Type} (parts : List Bytes) : Edit.Fault → Job α
  | .label name => giveUp 4 ("can't find label for jump to `".toList ++ name ++ ['\''])
  | .at count text =>
    let place := if count = 0 then (1, 0) else locateFault count 1 parts
    giveUp 1 (s!"-e expression #{place.1}, char {place.2}: {text}".toList)

/-- What is there to edit: the lines of all sources, whether more may come, and the
source that could not be read to its end, which is the last one then. -/
structure EditInput where
  lines : List Bytes
  more : Bool
  broken : Option Bytes

def unreadable (name : Bytes) (reason : String) : Job Unit :=
  warn 2 ("can't read ".toList ++ name ++ ": ".toList ++ reason.toList)

def editLines (ending : Char) : List Bytes → Job EditInput
  | [] => return ⟨[], false, none⟩
  | name :: names => do
    let isInput := name = ['-']
    match ← (if isInput then readNow else readFile name) with
    | .error "Is a directory" => return ⟨[], false, some name⟩
    | .error reason =>
      unreadable name reason
      editLines ending names
    | .ok b =>
      if isInput ∧ (← get).inputOpen then
        return ⟨(endedBy ending b).filter fun l => l.getLast? = some ending, true, none⟩
      else
        let rest ← editLines ending names
        return { rest with lines := endedBy ending b ++ rest.lines }

def writeFiled (written : List (Bytes × Bytes)) : List Bytes → Job Unit
  | [] => return ()
  | name :: names => do
    let content := (written.reverse.filter fun w => w.1 == name).flatMap (·.2)
    if String.ofList name == "/dev/stderr" then
      modify fun d => { d with written := (2, content) :: d.written }
    else
      match ← writeFile name content with
      | .ok _ => pure ()
      | .error reason =>
        giveUp 4 ("couldn't open file ".toList ++ name ++ ": ".toList ++ reason.toList)
    writeFiled written names

/-- The files that a script writes to; they are there even if nothing is written. -/
def outputsOf (steps : List EditStep) : List Bytes :=
  (steps.filterMap fun s => match s.op with
    | .writeFile name | .writeFirst name => some name
    | .substitute sub => sub.file
    | _ => none).eraseDups.filter fun n => String.ofList n != "/dev/stdout"

/-- Edit a text.  The answer is what has been written, and whether to go on. -/
def editText (plan : Edit.Plan) (ending : Char) (lines : List Bytes) (more : Bool)
    (hold : Bytes) : Job (Except Edit.Halt Unit × Edit.State) := do
  let start := { Edit.State.start ending lines more with
    hold, ranges := Edit.openRanges plan.steps.toList }
  let r := Edit.run plan start
  writeFiled r.2.filed (outputsOf plan.steps.toList)
  return r

def editInPlace (plan : Edit.Plan) (lineEnding : Char) (ending : Bytes) (hold : Bytes) :
    List Bytes → Job Unit
  | [] => return ()
  | name :: names => do
    match ← readFile name with
    | .error "Is a directory" =>
      warn 4 ("couldn't edit ".toList ++ name ++ ": not a regular file".toList)
      editInPlace plan lineEnding ending hold names
    | .error reason =>
      unreadable name reason
      editInPlace plan lineEnding ending hold names
    | .ok b =>
      let r ← editText plan lineEnding (endedBy lineEnding b) false hold
      let _ ← if ending.isEmpty then pure (.ok ()) else writeFile (name ++ ending) b
      let rest := match r.1 with
        | .error (.quit _) => r.2.left.flatten
        | _ => []
      let _ ← writeFile name (r.2.written.reverse.flatten ++ rest)
      match r.1 with
      | .error (.quit status) => quit status
      | _ => editInPlace plan lineEnding ending r.2.hold names

/-- Edit each source as a text of its own. -/
def editApart (plan : Edit.Plan) (ending : Char) (hold : Bytes) : List Bytes → Job Unit
  | [] => return ()
  | name :: names => do
    match ← readOperand name with
    | .error reason =>
      unreadable name reason
      editApart plan ending hold names
    | .ok b =>
      let r ← editText plan ending (endedBy ending b) false hold
      print r.2.written.reverse.flatten
      match r.1 with
      | .error (.quit status) => quit status
      | _ => editApart plan ending r.2.hold names

def sed : Job Unit := do
  let (ending, args) := takeInPlace "nErsuz" (← get).arguments
  modify fun d => { d with arguments := args }
  let g ← given 1 "nErsuz" "efl" [("quiet", 'n'), ("silent", 'n'), ("expression", 'e'),
    ("file", 'f'), ("regexp-extended", 'E'), ("separate", 's'), ("unbuffered", 'u'),
    ("line-length", 'l'), ("null-data", 'z')]
  let (parts, operands) ← editScript g
  let text := Bytes.join ['\n'] parts
  match Edit.read (g.has 'E' || g.has 'r') text with
  | .error fault => refuseScript parts fault
  | .ok steps =>
    let f ← files
    let plan : Edit.Plan :=
      { steps := steps.toArray, quiet := g.has 'n' || "#n\n".toList.isPrefixOf (text ++ ['\n'])
        files := fun name => match f.read (pathOf name) with
          | .ok b => Bytes.ofArray b
          | .error _ => [] }
    let lineEnding := if g.has 'z' then '\x00' else '\n'
    let names := if operands.isEmpty then [['-']] else operands
    match ending with
    | some ending => editInPlace plan lineEnding ending [] operands
    | none =>
      if g.has 's' && 1 < names.length then editApart plan lineEnding [] names
      else
        let input ← editLines lineEnding names
        let r ← editText plan lineEnding input.lines input.more []
        let output := r.2.written.reverse.flatten
        match r.1 with
        | .error .starved =>
          if g.has 'u' then printNow output
          throw .waiting
        | .error (.quit status) =>
          print output
          quit status
        | .error .noRegex =>
          print output
          giveUp 1 "no previous regular expression".toList
        | _ =>
          print output
          match input.broken with
          | none => return ()
          | some name => giveUp 4 ("read error on ".toList ++ name ++ ": Is a directory".toList)

end Job
end Shell
end CheckScript
