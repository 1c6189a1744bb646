/-
Programs that pass text on, whole or in part.
-/
import CheckScript.Outside.Shell.Builtin.Printing
import CheckScript.Outside.Shell.Program.Basic
import CheckScript.Outside.Shell.Program.Quoting

namespace CheckScript
namespace Shell
namespace Job

/-- The operands, or the input if there are none. -/
def sources (g : Given) : List Bytes := if g.operands.isEmpty then [['-']] else g.operands

def eachOf {α : Type} (f : α → Job Unit) : List α → Job Unit
  | [] => return ()
  | a :: as => do
    f a
    eachOf f as

/-! ## cat -/

/-- What lines are shown with: numbers on all of them or on those that are not
blank, signs at their ends, and signs for tabs and for other controls. -/
structure CatStyle where
  numbers : Bool
  numbersText : Bool
  squeezes : Bool
  ends : Bool
  tabs : Bool
  controls : Bool

def caret (n : Nat) : Bytes :=
  if n < 32 then ['^', Char.ofNat (n + 64)] else if n = 127 then ['^', '?'] else [Char.ofNat n]

def visible (style : CatStyle) (c : Char) : Bytes :=
  if c = '\t' then (if style.tabs then ['^', 'I'] else [c])
  else if c = '\n' then [c]
  else if !style.controls then [c]
  else if c.toNat < 128 then caret c.toNat
  else ['M', '-'] ++ caret (c.toNat - 128)

/-- Where one is in the output: the number of the last line, how many blank ones are
right before, and whether a line goes on. -/
structure CatPlace where
  line : Nat
  blanks : Nat
  inside : Bool

/-- Lines with their decoration. -/
def decorate (style : CatStyle) (p : CatPlace) : List Bytes → Bytes × CatPlace
  | [] => ([], p)
  | l :: ls =>
    let isBlank := l == ['\n'] && !p.inside
    let blanks := if isBlank then p.blanks + 1 else 0
    if style.squeezes && 2 ≤ blanks then decorate style { p with blanks } ls
    else
      let counted := !p.inside &&
        (style.numbersText && !isBlank || style.numbers && !style.numbersText)
      let line := if counted then p.line + 1 else p.line
      let number := if counted then padStart 6 (Bytes.ofNat line) ++ ['\t'] else []
      let ended := l.getLast? = some '\n'
      let body := (if ended then l.dropLast else l).flatMap (visible style)
      let ending := if ended then (if style.ends then ['$', '\n'] else ['\n']) else []
      let r := decorate style ⟨line, blanks, !ended⟩ ls
      (number ++ body ++ ending ++ r.1, r.2)

def catOne (style : CatStyle) (name : Bytes) (state : CatPlace) : Job CatPlace := do
  let isInput := name = ['-'] ∨ name = "/dev/stdin".toList
  match ← (if isInput then readNow else readFile name) with
  | .error reason =>
    warn 1 (Quoting.ifNeeded name ++ ": ".toList ++ reason.toList)
    if isInput && reason == "Bad file descriptor" then
      warn 1 ("closing standard input: ".toList ++ reason.toList)
    return state
  | .ok b =>
    let plain := !(style.numbers || style.numbersText || style.squeezes || style.ends ||
      style.tabs || style.controls)
    let r := if plain then (b, state) else decorate style state (fullLines b)
    printNow r.1
    if isInput then awaitEnd
    return r.2

def catAll (style : CatStyle) (state : CatPlace) : List Bytes → Job Unit
  | [] => return ()
  | name :: names => do
    let next ← catOne style name state
    catAll style next names

def cat : Job Unit := do
  let g ← given 1 "AbeEnstTuv" "" [("show-all", 'A'), ("number-nonblank", 'b'), ("show-ends", 'E'),
    ("number", 'n'), ("squeeze-blank", 's'), ("show-tabs", 'T'), ("show-nonprinting", 'v')]
  let style : CatStyle :=
    { numbers := g.has 'n', numbersText := g.has 'b', squeezes := g.has 's'
      ends := g.has 'E' || g.has 'e' || g.has 'A', tabs := g.has 'T' || g.has 't' || g.has 'A'
      controls := g.has 'v' || g.has 'e' || g.has 't' || g.has 'A' }
  catAll style ⟨0, 0, false⟩ (sources g)

/-! ## tac, rev and tee -/

/-- Lines from the last to the first; a last one without a newline joins the one
before it. -/
def reversedLines (b : Bytes) : Bytes := (fullLines b).reverse.flatten

def cannotOpen (name : Bytes) (reason : String) : Job Unit :=
  warn 1 ("failed to open ".toList ++ Quoting.always name ++ " for reading: ".toList ++
    reason.toList)

def tac : Job Unit := do
  let g ← given 1 "br" "s" []
  sources g |> eachOf fun name => do
    match ← readOperand name with
    | .ok b => print (reversedLines b)
    | .error reason => cannotOpen name reason

def reverseLine (l : Bytes) : Bytes :=
  if l.getLast? = some '\n' then l.dropLast.reverse ++ ['\n'] else l.reverse

def rev : Job Unit := do
  let g ← given 1 "" "" []
  sources g |> eachOf fun name => do
    match ← readOperand name with
    | .ok b => print ((fullLines b).flatMap reverseLine)
    | .error reason => warn 1 ("cannot open ".toList ++ name ++ ": ".toList ++ reason.toList)

def teeTo (appends : Bool) (text : Bytes) (name : Bytes) : Job Unit := do
  let old ← if appends then readFile name else pure (.ok [])
  match ← writeFile name (old.toOption.getD [] ++ text) with
  | .ok _ => return ()
  | .error reason => warn 1 (Quoting.ifNeeded name ++ ": ".toList ++ reason.toList)

def tee : Job Unit := do
  let g ← given 1 "aip" "" [("append", 'a'), ("ignore-interrupts", 'i')]
  match ← readNow with
  | .error reason => giveUp 1 ("read error: ".toList ++ reason.toList)
  | .ok b =>
    printNow b
    g.operands |> eachOf (teeTo (g.has 'a') b)
    awaitEnd

/-! ## head and tail -/

/-- A number of lines or bytes to show, from the start or the end of a text. -/
structure Amount where
  count : Nat
  bytes : Bool
  fromOther : Bool
deriving DecidableEq, Repr

/-- The factor that a letter behind a number stands for. -/
def factor? : Bytes → Option Nat
  | [] => some 1
  | ['b'] => some 512
  | ['k'] | ['K'] => some 1024
  | ['k', 'B'] | ['K', 'B'] => some 1000
  | ['M'] => some (1024 * 1024)
  | ['M', 'B'] => some 1000000
  | ['G'] => some (1024 * 1024 * 1024)
  | _ => none

def sized? (b : Bytes) : Option Nat := do
  let digits := b.takeWhile isDigit
  let n ← natural? digits
  let f ← factor? (b.drop digits.length)
  return n * f

/-- Read a number that follows a dash as the option for it. -/
def modern (args : List Bytes) : List Bytes :=
  match args with
  | ('-' :: c :: cs) :: rest =>
    if isDigit c then
      let digits := (c :: cs).takeWhile isDigit
      let more := (c :: cs).drop digits.length
      let letters := more.map fun l => ['-', l]
      (if more.contains 'c' then letters.filter (· != ['-', 'c']) ++ [['-', 'c'], digits]
        else letters ++ [['-', 'n'], digits]) ++ rest
    else args
  | args => args

/-- The lines or bytes at the start of a text, or all but those at its end. -/
def headPart (a : Amount) (b : Bytes) : Bytes :=
  if a.bytes then (if a.fromOther then b.take (b.length - a.count) else b.take a.count)
  else
    let ls := fullLines b
    (if a.fromOther then ls.take (ls.length - a.count) else ls.take a.count).flatten

/-- The lines or bytes at the end of a text, or those from a place on. -/
def tailPart (a : Amount) (b : Bytes) : Bytes :=
  if a.bytes then (if a.fromOther then b.drop (a.count - 1) else b.drop (b.length - a.count))
  else
    let ls := fullLines b
    (if a.fromOther then ls.drop (a.count - 1) else ls.drop (ls.length - a.count)).flatten

/-- The amount that options give. -/
def amount (g : Given) (otherSign : Char) : Job Amount := do
  match g.options.reverse.find? fun o => o.1 == 'n' || o.1 == 'c' with
  | none => return ⟨10, false, false⟩
  | some (letter, value) =>
    let isOther := value.head? = some otherSign
    let signless := if isOther || value.head? = some '-' || value.head? = some '+' then value.drop 1
      else value
    match sized? signless with
    | some n => return ⟨n, letter == 'c', isOther⟩
    | none =>
      let what := if letter = 'c' then "bytes" else "lines"
      giveUp 1 (s!"invalid number of {what}: ".toList ++ Quoting.always value)

def heading (isFirst : Bool) (name : Bytes) : Bytes :=
  (if isFirst then [] else ['\n']) ++ "==> ".toList ++
    (if name = ['-'] then "standard input".toList else name) ++ " <==\n".toList

/-- Show a part of each source, with headings if there are several. -/
def parts (g : Given) (part : Bytes → Bytes) (readInput : Job (Except String Bytes))
    (isFirst : Bool) : List Bytes → Job Unit
  | [] => return ()
  | name :: names => do
    let isInput := name = ['-']
    match ← (if isInput then readInput else readFile name) with
    | .error "Is a directory" =>
      let shown := if (1 < g.operands.length && !g.has 'q') || g.has 'v' then heading isFirst name
        else []
      print shown
      warn 1 ("error reading ".toList ++ Quoting.always name ++ ": Is a directory".toList)
      parts g part readInput false names
    | .error reason =>
      warn 1 ("cannot open ".toList ++ Quoting.always name ++ " for reading: ".toList ++
        reason.toList)
      parts g part readInput isFirst names
    | .ok b =>
      let shown := if (1 < g.operands.length && !g.has 'q') || g.has 'v' then heading isFirst name
        else []
      print (shown ++ part b)
      parts g part readInput false names

/-- The front of the input, without waiting for more than is needed. -/
def readFront (a : Amount) : Job (Except String Bytes) := do
  let d ← get
  match d.input with
  | .error reason => return .error reason
  | .ok b =>
    let front := headPart a b
    let enough := !a.fromOther && (if a.bytes then front.length = a.count
      else (front.count '\n') = a.count)
    if enough then
      set { d with
        used := d.used + (if d.inputIsFile then front.length else b.length)
        input := .ok (if d.inputIsFile then b.drop front.length else []) }
      return .ok front
    else readAll

def head : Job Unit := do
  modify fun d => { d with arguments := modern d.arguments }
  let g ← given 1 "qvz" "nc" [("lines", 'n'), ("bytes", 'c'), ("quiet", 'q'), ("silent", 'q'),
    ("verbose", 'v')]
  let a ← amount g '-'
  parts g (headPart a) (readFront a) true (sources g)

def tail : Job Unit := do
  modify fun d => { d with
    arguments := match d.arguments with
      | ('+' :: c :: cs) :: rest =>
        if isDigit c then ['-', 'n'] :: ('+' :: c :: cs) :: rest else d.arguments
      | _ => modern d.arguments }
  let g ← given 1 "qvzfF" "ncs" [("lines", 'n'), ("bytes", 'c'), ("quiet", 'q'), ("silent", 'q'),
    ("verbose", 'v'), ("follow", 'f')]
  let a ← amount g '+'
  parts g (tailPart a) readAll true (sources g)

/-! ## wc -/

structure Counts where
  lines : Nat
  words : Nat
  chars : Nat
  bytes : Nat
  longest : Nat
deriving DecidableEq, Repr

/-- The number of words: runs of characters that are no blanks. -/
def wordCount (inWord : Bool) : Bytes → Nat
  | [] => 0
  | c :: cs =>
    let isBlank := c == ' ' || ('\t' ≤ c && c ≤ '\r')
    if isBlank then wordCount false cs
    else (if inWord then 0 else 1) + wordCount true cs

def countsOf (b : Bytes) : Counts :=
  { lines := b.count '\n', words := wordCount false b, chars := b.length, bytes := b.length
    longest := (bareLines b).foldl (fun n l => max n l.length) 0 }

def Counts.add (a b : Counts) : Counts :=
  ⟨a.lines + b.lines, a.words + b.words, a.chars + b.chars, a.bytes + b.bytes,
    max a.longest b.longest⟩

def countLine (g : Given) (width : Nat) (c : Counts) (name : Bytes) : Bytes :=
  let plain := !(g.has 'l' || g.has 'w' || g.has 'c' || g.has 'm' || g.has 'L')
  let shown := (if g.has 'l' || plain then [c.lines] else []) ++
    (if g.has 'w' || plain then [c.words] else []) ++ (if g.has 'm' then [c.chars] else []) ++
    (if g.has 'c' || plain then [c.bytes] else []) ++ (if g.has 'L' then [c.longest] else [])
  Bytes.join [' '] (shown.map fun n => padStart width (Bytes.ofNat n)) ++
    (if name.isEmpty then [] else ' ' :: name)

def wcRead (total : Counts) (rows : List (Option (Counts × Bytes))) :
    List Bytes → Job (Counts × List (Option (Counts × Bytes)))
  | [] => return (total, rows.reverse)
  | name :: names => do
    match ← readOperand name with
    | .error reason =>
      if name.isEmpty then warn 1 "invalid zero-length file name".toList
      else warn 1 (Quoting.ifNeeded name ++ ": ".toList ++ reason.toList)
      if reason = "Is a directory" then wcRead total (some (countsOf [], name) :: rows) names
      else wcRead total (none :: rows) names
    | .ok b => wcRead (total.add (countsOf b)) (some (countsOf b, name) :: rows) names

/-- Numbers have the width of the number of all bytes, if there is more than one of
them; what is no file could have very many bytes. -/
def wcWidth (g : Given) (d : Desk) (total : Counts) : Nat :=
  let columns := (['l', 'w', 'c', 'm', 'L'].filter g.has).length
  if columns = 1 ∧ g.operands.length ≤ 1 then 1
  else
    let regular := (sources g).all fun n =>
      if n = ['-'] then d.inputIsFile
      else match d.files.find ⟨Bytes.text n⟩ with
        | .ok node => !node.isDirectory
        | .error _ => true
    let size := (Bytes.ofNat total.bytes).length
    if regular then size else max 7 size

def wc : Job Unit := do
  let g ← given 1 "lwcmL" "" [("lines", 'l'), ("words", 'w'), ("bytes", 'c'), ("chars", 'm'),
    ("max-line-length", 'L')]
  let d ← get
  let (total, rows) ← wcRead (countsOf []) [] (sources g)
  let width := wcWidth g d total
  let shown (c : Counts) (name : Bytes) : Bytes := countLine g width c name
  rows.filterMap id |> eachOf fun r =>
    printLine (shown r.1 (if g.operands.isEmpty then [] else r.2))
  if 1 < g.operands.length then printLine (shown total "total".toList)

/-! ## yes, seq and nl -/

/-- As much as anyone reads. -/
def endless (line : Bytes) : Bytes := (List.replicate (Nat.pow 2 19 / line.length + 1) line).flatten

def yes : Job Unit := do
  let words := (← get).arguments
  print (endless ((if words.isEmpty then ['y'] else Bytes.join [' '] words) ++ ['\n']))

/-- A number with digits behind a point: how many there are, and the number without
the point. -/
structure Decimal where
  places : Nat
  digits : Int

def decimal? (b : Bytes) : Option Decimal :=
  let (negative, b) := match b with
    | '-' :: cs => (true, cs)
    | '+' :: cs => (false, cs)
    | cs => (false, cs)
  let whole := b.takeWhile isDigit
  let fraction? : Option Bytes := match b.drop whole.length with
    | [] => some []
    | '.' :: cs => if cs.all isDigit then some cs else none
    | _ => none
  fraction?.bind fun fraction =>
    (natural? (whole ++ fraction)).map fun n =>
      ⟨fraction.length, if negative then -(n : Int) else n⟩

/-- The number without the point, counted in smaller units. -/
def Decimal.scaledTo (places : Nat) (d : Decimal) : Int := d.digits * Nat.pow 10 (places - d.places)

def seqFrom (step last : Int) : Nat → Int → List Int
  | 0, _ => []
  | fuel + 1, n =>
    if (0 < step ∧ last < n) ∨ (step < 0 ∧ n < last) then []
    else n :: seqFrom step last fuel (n + step)

/-- A number with digits behind a point, and with zeros in front up to a width. -/
def decimalText (places width : Nat) (n : Int) : Bytes :=
  let digits := Bytes.ofNat n.natAbs
  let digits := List.replicate (places + 1 - digits.length) '0' ++ digits
  let whole := digits.take (digits.length - places)
  let text := if places = 0 then whole else whole ++ '.' :: digits.drop whole.length
  let sign := if n < 0 then ['-'] else []
  sign ++ List.replicate (width - sign.length - text.length) '0' ++ text

/-- What the options of `seq` say: what stands between the numbers, whether they are
equally wide, and a format. -/
structure SeqStyle where
  separator : Bytes
  equal : Bool
  format : Option Bytes

/-- Options of `seq` end at the first number. -/
def seqOptions (s : SeqStyle) : List Bytes → SeqStyle × List Bytes
  | ['-', 's'] :: text :: rest => seqOptions { s with separator := text } rest
  | ['-', 'f'] :: text :: rest => seqOptions { s with format := some text } rest
  | ['-', 'w'] :: rest => seqOptions { s with equal := true } rest
  | ['-', '-'] :: rest => (s, rest)
  | ('-' :: 's' :: text) :: rest => seqOptions { s with separator := text } rest
  | ('-' :: 'f' :: text) :: rest => seqOptions { s with format := some text } rest
  | rest => (s, rest)

def seq : Job Unit := do
  let (style, operands) := seqOptions ⟨['\n'], false, none⟩ (← get).arguments
  let number (b : Bytes) : Job Decimal := do
    match decimal? b with
    | some n => return n
    | none => usage 1 ("invalid floating point argument: ".toList ++ Quoting.always b)
  let one : Decimal := ⟨0, 1⟩
  let (first, step, last) ← match operands with
    | [] => usage 1 "missing operand".toList
    | [c] => do pure (one, one, ← number c)
    | [a, c] => do pure (← number a, one, ← number c)
    | [a, b, c] => do pure (← number a, ← number b, ← number c)
    | _ :: _ :: _ :: d :: _ => usage 1 ("extra operand ".toList ++ Quoting.always d)
  if step.digits = 0 then
    usage 1 ("invalid Zero increment value: ".toList ++ Quoting.always (operands[1]?.getD []))
  let places := max (max first.places step.places) last.places
  let shownPlaces := max first.places step.places
  let (low, by', high) := (first.scaledTo places, step.scaledTo places, last.scaledTo places)
  let count := ((high - low).natAbs / by'.natAbs) + 1
  let numbers := (seqFrom by' high count low).map fun n =>
    n.tdiv (Nat.pow 10 (places - shownPlaces))
  let width := if style.equal then
      numbers.foldl (fun w n => max w (decimalText shownPlaces 0 n).length) 0
    else 0
  let shown (n : Int) : Bytes :=
    let text := decimalText shownPlaces width n
    match style.format with
    | none => text
    | some f => (Printing.printf f [text]).2.written.reverse.flatten
  if !numbers.isEmpty then printLine (Bytes.join style.separator (numbers.map shown))

/-- How lines are numbered: which ones, how wide, with what behind the numbers, from
where and by which steps. -/
structure NumberStyle where
  kind : Bytes
  layout : Bytes
  width : Nat
  separator : Bytes
  step : Nat

def numberText (s : NumberStyle) (n : Nat) : Bytes :=
  let digits := Bytes.ofNat n
  if s.layout == "ln".toList then digits ++ List.replicate (s.width - digits.length) ' '
  else if s.layout == "rz".toList then List.replicate (s.width - digits.length) '0' ++ digits
  else padStart s.width digits

/-- Lines with numbers; others have blanks instead. -/
def numbered (s : NumberStyle) (n : Nat) : List Bytes → Bytes
  | [] => []
  | l :: ls =>
    if s.kind == ['a'] || (s.kind == ['t'] && l != ['\n']) then
      numberText s n ++ s.separator ++ l ++ numbered s (n + s.step) ls
    else List.replicate (s.width + s.separator.length) ' ' ++ l ++ numbered s n ls

def nl : Job Unit := do
  let g ← given 1 "p" "bnsvwihfld" [("body-numbering", 'b'), ("number-format", 'n'),
    ("number-separator", 's'), ("starting-line-number", 'v'), ("number-width", 'w'),
    ("line-increment", 'i')]
  let number (letter : Char) (usual : Nat) : Nat :=
    ((g.value? letter).bind natural?).getD usual
  let style : NumberStyle :=
    { kind := (g.value? 'b').getD ['t'], layout := (g.value? 'n').getD "rn".toList
      width := number 'w' 6, separator := (g.value? 's').getD ['\t'], step := number 'i' 1 }
  let whole (b : Bytes) : Bytes := if b.getLast? = some '\n' || b.isEmpty then b else b ++ ['\n']
  let texts ← (sources g).mapM fun name => do
    match ← readOperand name with
    | .ok b => pure (whole b)
    | .error reason =>
      warn 1 (Quoting.ifNeeded name ++ ": ".toList ++ reason.toList)
      pure []
  print (numbered style (number 'v' 1) (fullLines texts.flatten))

end Job
end Shell
end CheckScript
