/-
Programs that change text character by character, by fields, or by the order of
its lines.
-/
import CheckScript.Outside.Shell.Pattern
import CheckScript.Outside.Shell.Program.Text

namespace CheckScript
namespace Shell
namespace Job

/-! ## tr -/

/-- A member of a set of characters.  A repeated one fills up what another set has
more. -/
inductive SetMember where
  | chars (cs : Bytes)
  | repeated (c : Char) (count : Nat)

def octalValue (ds : Bytes) : Nat := ds.foldl (fun n c => 8 * n + (c.toNat - 48)) 0

def isOctal (c : Char) : Bool := '0' ≤ c && c ≤ '7'

/-- The first character of a set with its escapes read, and what follows it. -/
def setChar : Bytes → Option (Char × Bytes)
  | [] => none
  | ['\\'] => some ('\\', [])
  | '\\' :: c :: cs =>
    let ds := (c :: cs).takeWhile isOctal |>.take 3
    if !ds.isEmpty then some (Char.ofNat (octalValue ds % 256), (c :: cs).drop ds.length)
    else
      match c with
      | 'a' => some ('\x07', cs)
      | 'b' => some ('\x08', cs)
      | 'f' => some ('\x0c', cs)
      | 'n' => some ('\n', cs)
      | 'r' => some ('\r', cs)
      | 't' => some ('\t', cs)
      | 'v' => some ('\x0b', cs)
      | c => some (c, cs)
  | c :: cs => some (c, cs)

def allChars : Bytes := (List.range 256).map Char.ofNat

/-- The characters from one to another. -/
def charRange (low high : Char) : Bytes :=
  (List.range (high.toNat + 1 - low.toNat)).map fun n => Char.ofNat (low.toNat + n)

/-- The members of a set.  A range whose end comes before its start is a fault. -/
def setMembers (fuel : Nat) (cs : Bytes) : Except Bytes (List SetMember) :=
  match fuel, cs with
  | 0, _ | _, [] => .ok []
  | fuel + 1, cs =>
    let isNamed (sign : Char) : Option (Bytes × Bytes) := match cs with
      | '[' :: s :: rest =>
        if s = sign then
          let name := rest.takeWhile (· != sign)
          match rest.drop name.length with
          | _ :: ']' :: more => some (name, more)
          | _ => none
        else none
      | _ => none
    match isNamed ':' with
    | some (name, rest) =>
      let members := allChars.filter (Pattern.inClass name)
      if members.isEmpty then
        .error ("invalid character class ".toList ++ Quoting.always name)
      else (setMembers fuel rest).map (.chars members :: ·)
    | none =>
      match isNamed '=' with
      | some ([c], rest) => (setMembers fuel rest).map (.chars [c] :: ·)
      | _ =>
        let repeated : Option (Char × Nat × Bytes) := match cs with
          | '[' :: rest =>
            match setChar rest with
            | some (c, '*' :: more) =>
              let ds := more.takeWhile isDigit
              match more.drop ds.length with
              | ']' :: after =>
                let n := if ds.head? = some '0' then octalValue ds else (natural? ds).getD 0
                some (c, n, after)
              | _ => none
            | _ => none
          | _ => none
        match repeated with
        | some (c, n, rest) => (setMembers fuel rest).map (.repeated c n :: ·)
        | none =>
          match setChar cs with
          | none => .ok []
          | some (c, '-' :: rest) =>
            match setChar rest with
            | none => (setMembers fuel ('-' :: rest)).map (.chars [c] :: ·)
            | some (d, more) =>
              if d < c then
                .error ("range-endpoints of '".toList ++ [c, '-', d] ++
                  "' are in reverse collating sequence order".toList)
              else (setMembers fuel more).map (.chars (charRange c d) :: ·)
          | some (c, rest) => (setMembers fuel rest).map (.chars [c] :: ·)

def memberSize : SetMember → Nat
  | .chars cs => cs.length
  | .repeated _ n => n

/-- The characters of a set that is filled up to a size. -/
def setChars (size : Nat) (ms : List SetMember) : Bytes :=
  let fixed := (ms.map memberSize).foldr (· + ·) 0
  ms.flatMap fun
    | .chars cs => cs
    | .repeated c n => List.replicate (if n = 0 then size - fixed else n) c

/-- Keep the first of each run of one of the characters. -/
def squeeze (set : Bytes) (last : Option Char) : Bytes → Bytes
  | [] => []
  | c :: cs =>
    if last = some c && set.contains c then squeeze set last cs
    else c :: squeeze set (some c) cs

def recode (src dst : Bytes) (c : Char) : Char :=
  match (src.zip dst).reverse.find? fun p => p.1 == c with
  | some p => p.2
  | none => c

def tr : Job Unit := do
  let g ← givenInFront 1 "cCdst" ""
  let set (size : Nat) (b : Bytes) : Job Bytes :=
    match setMembers (b.length + 1) b with
    | .ok ms => return setChars size ms
    | .error fault => giveUp 1 fault
  let deletes := g.has 'd'
  let squeezes := g.has 's'
  let needsTwo := deletes == squeezes
  let (one, two) ← match g.operands with
    | [] => usage 1 "missing operand".toList
    | [a] =>
      if needsTwo then
        warn 1 ("missing operand after ".toList ++ Quoting.always a)
        complain (if deletes then
            "Two strings must be given when both deleting and squeezing repeats.".toList
          else "Two strings must be given when translating.".toList)
        complain "Try 'tr --help' for more information.".toList
        quit 1
      else pure (a, none)
    | [a, b] =>
      if deletes && !squeezes then
        warn 1 ("extra operand ".toList ++ Quoting.always b)
        complain "Only one string may be given when deleting without squeezing repeats.".toList
        complain "Try 'tr --help' for more information.".toList
        quit 1
      else pure (a, some b)
    | _ :: _ :: c :: _ => usage 1 ("extra operand ".toList ++ Quoting.always c)
  let first ← set 0 one
  let first := if g.has 'c' || g.has 'C' then allChars.filter (! first.contains ·) else first
  let second ← match two with
    | none => pure []
    | some b => set first.length b
  if two.isSome && !deletes && second.isEmpty && !first.isEmpty then
    giveUp 1 "when not truncating set1, string2 must be non-empty".toList
  match ← readAll with
  | .error reason => giveUp 1 ("read error: ".toList ++ reason.toList)
  | .ok b =>
    let kept := if deletes then b.filter (! first.contains ·) else b
    let full := match second.getLast? with
      | some last => second ++ List.replicate (first.length - second.length) last
      | none => second
    let full := if g.has 't' then second else full
    let changed := if two.isSome && !deletes then kept.map (recode first full) else kept
    let squeezed := if squeezes then
        squeeze (if two.isSome then second else first) none changed
      else changed
    print squeezed

/-! ## sort and uniq -/

/-- How lines or keys compare. -/
structure SortStyle where
  numeric : Bool
  version : Bool
  fold : Bool
  blanks : Bool
  dictionary : Bool
  backwards : Bool

/-- Where a key begins or ends: a field and a character in it, from one.  An end
at character zero is the end of the field. -/
structure KeyPlace where
  field : Nat
  char : Nat

structure SortKey where
  start : KeyPlace
  stop : Option KeyPlace
  style : SortStyle

def upper (c : Char) : Char := if 'a' ≤ c ∧ c ≤ 'z' then Char.ofNat (c.toNat - 32) else c

def isGap (c : Char) : Bool := c == ' ' || c == '\t' || c == '\n'

/-- A number at the front of a text: an integer, and by how many powers of ten it
is too large. -/
def sortNumber (b : Bytes) : Int × Nat :=
  let b := b.dropWhile isGap
  let (negative, b) := match b with
    | '-' :: cs => (true, cs)
    | cs => (false, cs)
  let whole := b.takeWhile isDigit
  let fraction := match b.drop whole.length with
    | '.' :: cs => cs.takeWhile isDigit
    | _ => []
  let n := (natural? (whole ++ fraction)).getD 0
  (if negative then -(n : Int) else n, fraction.length)

def compareNumbers (a b : Bytes) : Ordering :=
  let m := sortNumber a
  let n := sortNumber b
  compare (m.1 * Nat.pow 10 n.2) (n.1 * Nat.pow 10 m.2)

def compareBytes : Bytes → Bytes → Ordering
  | [], [] => .eq
  | [], _ => .lt
  | _, [] => .gt
  | a :: as, b :: bs => (compare a.toNat b.toNat).then (compareBytes as bs)

/-- The rank of a character in the parts of versions that are no numbers. -/
def versionRank (c : Char) : Int :=
  if isDigit c then 0
  else if c = '~' then -1
  else if isNameChar c && c != '_' then c.toNat
  else c.toNat + 256

/-- Compare the parts of versions that are no numbers. -/
def compareSigns : Bytes → Bytes → Ordering
  | [], [] => .eq
  | a :: as, [] =>
    if versionRank a < 0 then .lt
    else if versionRank a = 0 then compareSigns as [] else .gt
  | [], b :: bs =>
    if versionRank b < 0 then .gt
    else if versionRank b = 0 then compareSigns [] bs else .lt
  | a :: as, b :: bs => (compare (versionRank a) (versionRank b)).then (compareSigns as bs)

/-- Compare versions: numbers by their values, what stands between them by signs. -/
def compareVersionParts : Nat → Bytes → Bytes → Ordering
  | 0, _, _ => .eq
  | fuel + 1, a, b =>
    if a.isEmpty && b.isEmpty then .eq
    else
      let (signsA, signsB) := (a.takeWhile (! isDigit ·), b.takeWhile (! isDigit ·))
      let (restA, restB) := (a.drop signsA.length, b.drop signsB.length)
      let (numberA, numberB) := (restA.takeWhile isDigit, restB.takeWhile isDigit)
      ((compareSigns signsA signsB).then
        (compare ((natural? numberA).getD 0) ((natural? numberB).getD 0))).then
          (compareVersionParts fuel (restA.drop numberA.length) (restB.drop numberB.length))

def compareVersions (a b : Bytes) : Ordering :=
  compareVersionParts (a.length + b.length + 1) a b

def compareStyled (s : SortStyle) (a b : Bytes) : Ordering :=
  let trim (b : Bytes) : Bytes := if s.blanks then b.dropWhile isGap else b
  let keep (b : Bytes) : Bytes :=
    if s.dictionary then b.filter fun c => isNameChar c && c != '_' || isGap c else b
  let shape (b : Bytes) : Bytes := if s.fold then (keep (trim b)).map upper else keep (trim b)
  let r := if s.numeric then compareNumbers a b
    else if s.version then compareVersions (shape a) (shape b)
    else compareBytes (shape a) (shape b)
  if s.backwards then r.swap else r

/-- The place behind `n` fields that blanks separate: the blanks before a field
belong to it. -/
def skipBlankFields : Nat → Bytes → Bytes
  | 0, b => b
  | n + 1, b => skipBlankFields n ((b.dropWhile isGap).dropWhile (! isGap ·))

/-- The place behind `n` fields that a character separates, and behind the last
separator. -/
def skipFields (separator : Char) : Nat → Bytes → Bytes
  | 0, b => b
  | n + 1, b => skipFields separator n ((b.dropWhile (· != separator)).drop 1)

/-- The part of a line that is compared. -/
def keyPart (separator : Option Char) (k : SortKey) (line : Bytes) : Bytes :=
  let fromField (n : Nat) : Bytes := match separator with
    | none => skipBlankFields n line
    | some c => skipFields c n line
  let blanksOff (b : Bytes) : Bytes := if k.style.blanks then b.dropWhile isGap else b
  let start := (blanksOff (fromField (k.start.field - 1))).drop (k.start.char - 1)
  match k.stop with
  | none => start
  | some stop =>
    let rest :=
      if stop.char = 0 then
        match separator with
        | none => skipBlankFields stop.field line
        | some c =>
          let last := fromField (stop.field - 1)
          last.dropWhile (· != c)
      else (blanksOff (fromField (stop.field - 1))).drop stop.char
    start.take (start.length - rest.length)

/-- The style that letters ask for. -/
def styleOf (letters : Bytes) : SortStyle :=
  { numeric := letters.contains 'n' || letters.contains 'g'
    version := letters.contains 'V', fold := letters.contains 'f'
    blanks := letters.contains 'b', dictionary := letters.contains 'd'
    backwards := letters.contains 'r' }

/-- What is wrong with a key. -/
def keyFault {α : Type} (what : String) (rest : Bytes) : Except Bytes α :=
  .error (what.toList ++ Quoting.always rest)

def countFault {α : Type} (what : String) (rest : Bytes) : Except Bytes α :=
  keyFault ("invalid number " ++ what ++ ": invalid count at start of ") rest

/-- A place in a key, and the letters behind it.  A character before the first is none
unless it is the end of a field. -/
def keyPlace (place : String) (least : Nat) (whole b : Bytes) : Except Bytes (KeyPlace × Bytes) :=
  match natural? (b.takeWhile isDigit) with
  | none => countFault place b
  | some 0 => keyFault "field number is zero: invalid field specification " whole
  | some field =>
    match b.dropWhile isDigit with
    | '.' :: cs =>
      match natural? (cs.takeWhile isDigit) with
      | none => countFault "after '.'" cs
      | some char =>
        if char < least then
          keyFault "character offset is zero: invalid field specification " whole
        else .ok (⟨field, char⟩, cs.dropWhile isDigit)
    | rest => .ok (⟨field, least⟩, rest)

/-- A key as an option gives it.  Without letters of its own it has the style of
the whole order. -/
def sortKey (general : SortStyle) (b : Bytes) : Except Bytes SortKey := do
  let isKind (c : Char) : Bool := "bdfghiMnRrV".toList.contains c
  let stray {α : Type} : Except Bytes α :=
    keyFault "stray character in field spec: invalid field specification " b
  let style (letters : Bytes) : SortStyle := if letters.isEmpty then general else styleOf letters
  let (start, behind) ← keyPlace "at field start" 1 b b
  let letters := behind.takeWhile isKind
  match behind.drop letters.length with
  | [] => return ⟨start, none, style letters⟩
  | ',' :: rest =>
    let (stop, more) ← keyPlace "after ','" 0 b rest
    if more.all isKind then return ⟨start, some stop, style (letters ++ more)⟩ else stray
  | _ => stray

/-- The order of lines: key by key, and at last as a whole. -/
def compareLines (separator : Option Char) (keys : List SortKey) (general : SortStyle)
    (asLast : Bool) (a b : Bytes) : Ordering :=
  let byKeys := keys.foldl (fun (r : Ordering) k =>
    r.then (compareStyled k.style (keyPart separator k a) (keyPart separator k b))) .eq
  let whole := if keys.isEmpty then compareStyled general a b else .eq
  let last := if asLast then
      let r := compareBytes a b
      if general.backwards then r.swap else r
    else .eq
  (byKeys.then whole).then last

/-- Keep the first of lines that count as equal. -/
def dropEqual (same : Bytes → Bytes → Bool) : List Bytes → List Bytes
  | [] => []
  | [l] => [l]
  | a :: b :: ls => if same a b then dropEqual same (a :: ls) else a :: dropEqual same (b :: ls)
termination_by ls => ls.length

/-- The first line that is out of order, by its number. -/
def disorder? (bad : Bytes → Bytes → Bool) (line : Nat) : List Bytes → Option (Nat × Bytes)
  | a :: b :: ls => if bad a b then some (line + 1, b) else disorder? bad (line + 1) (b :: ls)
  | _ => none

def gather (found : List Bytes) : List Bytes → Job (List Bytes)
  | [] => return found.reverse
  | name :: names => do
    match ← readOperand name with
    | .ok b => gather (b :: found) names
    | .error "Is a directory" =>
      giveUp 2 ("read failed: ".toList ++ Quoting.ifNeeded name ++ ": Is a directory".toList)
    | .error reason =>
      giveUp 2 ("cannot read: ".toList ++ Quoting.ifNeeded name ++ ": ".toList ++ reason.toList)

def sort : Job Unit := do
  let g ← given 2 "bdfghimMnrRsuVcCz" "kotS" [("reverse", 'r'), ("numeric-sort", 'n'),
    ("unique", 'u'), ("ignore-case", 'f'), ("key", 'k'), ("field-separator", 't'), ("output", 'o'),
    ("check", 'c'), ("stable", 's'), ("ignore-leading-blanks", 'b')]
  let general := styleOf (g.options.filterMap fun o => if o.2.isEmpty then some o.1 else none)
  let separator ← match g.value? 't' with
    | none => pure none
    | some [c] => pure (some c)
    | some ['\\', '0'] => pure (some '\x00')
    | some [] => giveUp 2 "empty tab".toList
    | some b => giveUp 2 ("multi-character tab ".toList ++ Quoting.always b)
  let keys ← (g.values 'k').mapM fun b =>
    match sortKey general b with
    | .ok k => pure k
    | .error fault => giveUp 2 fault
  let ending := if g.has 'z' then '\x00' else '\n'
  let texts ← gather [] (sources g)
  let texts := texts.map fun b => bareEndedBy ending b
  let lines := texts.flatten
  let order (last : Bool) : Bytes → Bytes → Ordering := compareLines separator keys general last
  if g.has 'c' || g.has 'C' then
    let bad (a b : Bytes) : Bool :=
      if g.has 'u' then order false a b != .lt else order (! g.has 's') a b == .gt
    match disorder? bad 1 lines with
    | none => return ()
    | some (n, line) =>
      if g.has 'c' then
        let name := (sources g).head?.getD ['-']
        warn 1 (name ++ [':'] ++ Bytes.ofNat n ++ ": disorder: ".toList ++ line)
      quit 1
  let inOrder (a b : Bytes) : Bool := order (!(g.has 's' || g.has 'u')) a b != .gt
  let sorted := if g.has 'm' then texts.foldl (fun a b => List.merge a b inOrder) []
    else lines.mergeSort inOrder
  let kept := if g.has 'u' then dropEqual (fun a b => order false a b == .eq) sorted else sorted
  let output := kept.flatMap (· ++ [ending])
  match g.value? 'o' with
  | none => print output
  | some name =>
    match ← writeFile name output with
    | .ok _ => return ()
    | .error reason =>
      giveUp 2 ("open failed: ".toList ++ Quoting.ifNeeded name ++ ": ".toList ++ reason.toList)

/-- Runs of lines that count as equal, with the first of each. -/
def runs (same : Bytes → Bytes → Bool) : List Bytes → List (Nat × Bytes)
  | [] => []
  | l :: ls =>
    match runs same ls with
    | (n, m) :: more => if same l m then (n + 1, l) :: more else (1, l) :: (n, m) :: more
    | [] => [(1, l)]

def uniq : Job Unit := do
  let g ← given 1 "cdDiuz" "fsw" [("count", 'c'), ("repeated", 'd'), ("unique", 'u'),
    ("ignore-case", 'i'), ("skip-fields", 'f'), ("skip-chars", 's'), ("check-chars", 'w')]
  let number (letter : Char) : Option Nat := (g.value? letter).bind natural?
  let shape (l : Bytes) : Bytes :=
    let l := (skipBlankFields ((number 'f').getD 0) l).drop ((number 's').getD 0)
    let l := match number 'w' with
      | some n => l.take n
      | none => l
    if g.has 'i' then l.map upper else l
  match g.operands with
  | _ :: _ :: extra :: _ => usage 1 ("extra operand ".toList ++ Quoting.always extra)
  | _ => pure ()
  let name := (sources g).head?.getD ['-']
  match ← readOperand name with
  | .error reason => giveUp 1 (Quoting.ifNeeded name ++ ": ".toList ++ reason.toList)
  | .ok b =>
    let all := runs (fun a c => shape a == shape c) (bareLines b)
    let kept := all.filter fun r => (!g.has 'd' || 1 < r.1) && (!g.has 'u' || r.1 = 1)
    let output := kept.flatMap fun r =>
      (if g.has 'c' then padStart 7 (Bytes.ofNat r.1) ++ [' '] else []) ++ r.2 ++ ['\n']
    match g.operands with
    | [_, target] =>
      match ← writeFile target output with
      | .ok _ => return ()
      | .error reason => giveUp 1 (Quoting.ifNeeded target ++ ": ".toList ++ reason.toList)
    | _ => print output

/-! ## cut and paste -/

/-- A range of positions, from one.  Without an end it goes on for ever. -/
structure Positions where
  low : Nat
  high : Option Nat

def positionList? (b : Bytes) : Option (List Positions) :=
  (Text.cut ',' b).mapM fun piece => do
    let low := piece.takeWhile isDigit
    match piece.drop low.length with
    | [] => let n ← natural? low; if n = 0 then none else return ⟨n, some n⟩
    | '-' :: high =>
      if low.isEmpty && high.isEmpty then none
      else
        let m ← if low.isEmpty then some 1 else natural? low
        if m = 0 then none
        else if high.isEmpty then return ⟨m, none⟩
        else
          let n ← natural? high
          if n < m then none else return ⟨m, some n⟩
    | _ => none

/-- Whether a range ends before it begins. -/
def isDecreasing (piece : Bytes) : Bool :=
  let low := piece.takeWhile isDigit
  match natural? low, piece.drop low.length with
  | some m, '-' :: high => (natural? high).any (· < m)
  | _, _ => false

def isListed (ps : List Positions) (n : Nat) : Bool :=
  ps.any fun p => p.low ≤ n && (match p.high with
    | some high => n ≤ high
    | none => true)

/-- The items at the listed positions. -/
def chosen {α : Type} (ps : List Positions) (complement : Bool) (items : List α) : List α :=
  (items.zipIdx 1).filterMap fun i => if isListed ps i.2 != complement then some i.1 else none

def cut : Job Unit := do
  let g ← given 1 "sznC" "bcdfO" [("fields", 'f'), ("bytes", 'b'), ("characters", 'c'),
    ("delimiter", 'd'), ("only-delimited", 's'), ("output-delimiter", 'O'), ("complement", 'C')]
  let kinds := g.options.filter fun o => o.1 == 'b' || o.1 == 'c' || o.1 == 'f'
  let (kind, list) ← match kinds with
    | [k] => pure k
    | [] => usage 1 "you must specify a list of bytes, characters, or fields".toList
    | _ => usage 1 "only one type of list may be specified".toList
  let delimiter ← match g.value? 'd' with
    | none => pure '\t'
    | some [c] => pure c
    | some _ => usage 1 "the delimiter must be a single character".toList
  let positions ← match positionList? list with
    | some ps => pure ps
    | none =>
      if (Text.cut ',' list).any isDecreasing then usage 1 "invalid decreasing range".toList
      else if list.all fun c => isDigit c || c == ',' || c == '-' then
        usage 1 (if kind = 'f' then "fields are numbered from 1".toList
          else "byte/character positions are numbered from 1".toList)
      else usage 1 ((if kind = 'f' then "invalid field value " else
          "invalid byte/character position ").toList ++ Quoting.always list)
  let byFields (l : Bytes) : Option Bytes :=
    if l.contains delimiter then
      some (Bytes.join ((g.value? 'O').getD [delimiter])
        (chosen positions (g.has 'C') (Text.cut delimiter l)))
    else if g.has 's' then none
    else some l
  let line (l : Bytes) : Option Bytes :=
    if kind = 'f' then byFields l else some (chosen positions (g.has 'C') l)
  sources g |> eachOf fun name => do
    match ← readOperand name with
    | .ok b => print (((bareLines b).filterMap line).flatMap (· ++ ['\n']))
    | .error reason => warn 1 (Quoting.ifNeeded name ++ ": ".toList ++ reason.toList)

/-- Join pieces by separators that are used in turn. -/
def joinInTurn (separators : Bytes) (n : Nat) : List Bytes → Bytes
  | [] => []
  | [b] => b
  | b :: bs =>
    b ++ (separators[n % separators.length]?).toList ++ joinInTurn separators (n + 1) bs

/-- Rows of the first, second and further lines of several texts. -/
def rows : Nat → List (List Bytes) → List (List Bytes)
  | 0, _ => []
  | fuel + 1, texts =>
    if texts.all (·.isEmpty) then []
    else texts.map (fun ls => ls.head?.getD []) :: rows fuel (texts.map List.tail)

/-- Every so many lines, from the first on. -/
def everyNth (n : Nat) : Nat → List Bytes → List Bytes
  | 0, _ | _, [] => []
  | fuel + 1, l :: ls => l :: everyNth n fuel ((l :: ls).drop n)

/-- Sources that are the same input read its lines in turn. -/
def shareInput (names : List Bytes) (texts : List (List Bytes)) : List (List Bytes) :=
  let isInput (name : Bytes) : Bool := name == ['-']
  let readers := names.countP isInput
  let input := ((names.zip texts).find? fun t => isInput t.1).elim [] (·.2)
  (names.zip texts).zipIdx.map fun t =>
    if isInput t.1.1 then
      let place := (names.take t.2).countP isInput
      everyNth readers input.length (input.drop place)
    else t.1.2

def paste : Job Unit := do
  let g ← given 1 "sz" "d" [("serial", 's'), ("delimiters", 'd')]
  let separators := match g.value? 'd' with
    | none => ['\t']
    | some b => ((b.foldr (fun c (r : Bytes) => match c, r with
        | '\\', 'n' :: rest => '\n' :: rest
        | '\\', 't' :: rest => '\t' :: rest
        | c, rest => c :: rest) []))
  let texts ← (sources g).mapM fun name => do
    match ← readOperand name with
    | .ok b => pure (bareLines b)
    | .error reason => giveUp 1 (Quoting.ifNeeded name ++ ": ".toList ++ reason.toList)
  let made := if g.has 's' then texts
    else
      let texts := shareInput (sources g) texts
      rows ((texts.map List.length).foldl max 0) texts
  print (made.flatMap fun r => joinInTurn separators 0 r ++ ['\n'])

/-- The column behind a character. -/
def columnBehind (byBytes : Bool) (column : Nat) (c : Char) : Nat :=
  if byBytes then column + 1
  else if c = '\t' then column + 8 - column % 8
  else if c = '\x08' then column - 1
  else if c = '\r' then 0
  else column + 1

/-- Cut a line, given last character first, behind its last blank. -/
def cutAtBlank (line : Bytes) : Option (Bytes × Bytes) :=
  let behind := line.takeWhile fun c => c != ' ' && c != '\t'
  if behind.length = line.length then none else some (line.drop behind.length, behind)

/-- Break lines before a character that would go beyond the width. -/
def folded (width : Nat) (byBytes atBlanks : Bool) : Nat → Bytes → Bytes → List Bytes
  | 0, line, cs => [line.reverse ++ cs]
  | _, line, [] => [line.reverse]
  | fuel + 1, line, c :: cs =>
    if c = '\n' then (c :: line).reverse :: folded width byBytes atBlanks fuel [] cs
    else
      let column := columnBehind byBytes (line.foldr (fun d n => columnBehind byBytes n d) 0) c
      if column ≤ width then folded width byBytes atBlanks fuel (c :: line) cs
      else
        match (if atBlanks then cutAtBlank line else none) with
        | some (front, behind) =>
          ('\n' :: front).reverse :: folded width byBytes atBlanks fuel behind (c :: cs)
        | none =>
          if line.isEmpty then folded width byBytes atBlanks fuel [c] cs
          else ('\n' :: line).reverse :: folded width byBytes atBlanks fuel [] (c :: cs)

def fold : Job Unit := do
  let g ← given 1 "bs" "w" [("width", 'w'), ("bytes", 'b'), ("spaces", 's')]
  let width ← match g.value? 'w' with
    | none => pure 80
    | some b =>
      match natural? b with
      | some n => if n = 0 then giveUp 1 "invalid number of columns: '0'".toList else pure n
      | none => giveUp 1 ("invalid number of columns: ".toList ++ Quoting.always b)
  sources g |> eachOf fun name => do
    match ← readOperand name with
    | .ok b => print (folded width (g.has 'b') (g.has 's') (3 * b.length + 1) [] b).flatten
    | .error reason => warn 1 (Quoting.ifNeeded name ++ ": ".toList ++ reason.toList)

end Job
end Shell
end CheckScript
