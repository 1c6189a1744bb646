/-
The values of report scripts: numbers, texts, and texts from outside that may be
meant as numbers.
-/
import CheckScript.Outside.Shell.Program.Report.Token

namespace CheckScript
namespace Shell
namespace Report

inductive Cell where
  | unset
  | number (x : Float)
  | text (b : Bytes)
  | input (b : Bytes)

namespace Cell

def isBlank (c : Char) : Bool := c == ' ' || ('\t' ≤ c && c ≤ '\r')

/-- The number that a text is as a whole, but for blanks around it. -/
def wholeNumber? (b : Bytes) : Option Float :=
  let b := ((b.dropWhile isBlank).reverse.dropWhile isBlank).reverse
  let digits := match b with
    | '+' :: cs | '-' :: cs => cs
    | cs => cs
  match digits with
  | c :: _ =>
    if isDigit c || c == '.' then
      match Printing.floatArgument b with
      | (x, none) => some x
      | _ => none
    else none
  | [] => none

/-- The number that a text begins with, or zero. -/
def leadingNumber (b : Bytes) : Float := (Printing.floatArgument b).1

def toNumber : Cell → Float
  | unset => 0
  | number x => x
  | text b | input b => leadingNumber b

/-- The integer that a number is. -/
def integer? (x : Float) : Option Int :=
  (Printing.Quotient.ofFloat? x).bind fun q =>
    if q.top % q.bottom = 0 then
      let n : Int := (q.top / q.bottom : Nat)
      some (if q.negative then -n else n)
    else none

/-- The integer on the way from a number to zero. -/
def truncated (x : Float) : Int :=
  match Printing.Quotient.ofFloat? x with
  | some q =>
    let n : Int := (q.top / q.bottom : Nat)
    if q.negative then -n else n
  | none => if x < 0 then -(Nat.pow 2 63 : Int) else (Nat.pow 2 63 : Int) - 1

/-- The largest number that is written in full. -/
def greatest : Int := (Nat.pow 2 64 : Int) - 1

/-- A number as a format with one directive writes it. -/
def formatted (format : Bytes) (x : Float) : Bytes :=
  match format with
  | '%' :: '.' :: rest =>
    let digits := rest.takeWhile isDigit
    match rest.drop digits.length with
    | letter :: more =>
      let n := digits.foldl (fun n c => 10 * n + (c.toNat - 48)) 0
      Printing.floatText ⟨[], 0, some n⟩ letter x ++ more
    | [] => format
  | _ => Printing.floatText ⟨[], 0, some 6⟩ 'g' x

/-- Integers are written in full, other numbers as the format says. -/
def numberText (format : Bytes) (x : Float) : Bytes :=
  match integer? x with
  | some n =>
    if n < -(Nat.pow 2 63 : Int) ∨ Nat.pow 2 64 < n then formatted format x
    else Bytes.ofInt (min n greatest)
  | none => formatted format x

def toText (format : Bytes) : Cell → Bytes
  | unset => []
  | number x => numberText format x
  | text b | input b => b

/-- Whether a value counts as true. -/
def holds : Cell → Bool
  | unset => false
  | number x => x != 0
  | text b => !b.isEmpty
  | input b =>
    match wholeNumber? b with
    | some x => x != 0
    | none => !b.isEmpty

/-- The number as which a value is compared, if it is not compared as a text. -/
def numeric? : Cell → Option Float
  | unset => some 0
  | number x => some x
  | text _ => none
  | input b => wholeNumber? b

/-- Values are compared as numbers only if both are numbers. -/
def compare (format : Bytes) (a b : Cell) : Ordering :=
  match a.numeric?, b.numeric? with
  | some x, some y => if x < y then .lt else if x == y then .eq else .gt
  | _, _ =>
    let (s, t) := (a.toText format, b.toText format)
    if s == t then .eq else if s < t then .lt else .gt

end Cell

def Comparison.holds (c : Comparison) : Ordering → Bool
  | .lt => c.less
  | .eq => c.same
  | .gt => c.more

/-- What is left of a number when as much of another as possible is taken away. -/
def remainder (x y : Float) : Float :=
  match Cell.integer? x, Cell.integer? y with
  | some m, some n => if n = 0 then 0.0 / 0.0 else Float.ofInt (m.tmod n)
  | _, _ =>
    let q := x / y
    x - y * (if q < 0 then q.ceil else q.floor)

def Arith.apply : Arith → Float → Float → Float
  | add, x, y => x + y
  | subtract, x, y => x - y
  | multiply, x, y => x * y
  | divide, x, y => x / y
  | .remainder, x, y => Report.remainder x y
  | power, x, y => x.pow y

/-! ## Arrays -/

/-- The entries of an array, the latest first. -/
abbrev Entries := List (Bytes × Cell)

namespace Entries

def get? (es : Entries) (key : Bytes) : Option Cell :=
  (es.find? fun e => e.1 == key).map (·.2)

def put (es : Entries) (key : Bytes) (value : Cell) : Entries :=
  if es.any fun e => e.1 == key then es.map fun e => if e.1 == key then (key, value) else e
  else (key, value) :: es

def remove (es : Entries) (key : Bytes) : Entries := es.filter fun e => e.1 != key

/-- The number by which a key is put into its row. -/
def spread (key : Bytes) : Nat :=
  key.foldl (fun n c => (n ^^^ c.toNat) * 16777619 % Nat.pow 2 32) 2166136261

def rowCount (size : Nat) : Nat → Nat
  | 0 => 64
  | fuel + 1 =>
    let rows := rowCount size fuel
    if 12 * rows < size then 2 * rows else rows

/-- The keys row by row; in a row the latest is first. -/
def keys (es : Entries) : List Bytes :=
  let rows := rowCount es.length 20
  (es.map fun e => (spread e.1 % rows, e.1)).mergeSort (fun a b => a.1 ≤ b.1) |>.map (·.2)

end Entries

/-! ## Cutting texts -/

/-- Cut a text at each match of an expression that is not empty. -/
def cutAtMatches (r : Regex) (s : Regex.Subject) : Nat → Nat → Nat → List Bytes
  | 0, low, _ => [Regex.textOf s low s.text.size]
  | fuel + 1, low, place =>
    match Regex.search s r place with
    | none => [Regex.textOf s low s.text.size]
    | some m =>
      if m.stop = m.start then
        if s.text.size ≤ m.start then [Regex.textOf s low s.text.size]
        else cutAtMatches r s fuel low (m.start + 1)
      else Regex.textOf s low m.start :: cutAtMatches r s fuel m.stop m.stop

def words (b : Bytes) : List Bytes :=
  (b.splitBy fun c d => isSpace c == isSpace d).filter fun w => !(w.head?.any isSpace)

/-- What lies between fields. -/
inductive Separator where
  | blanks
  | nothing
  | char (c : Char)
  | regex (r : Regex)

/-- The separator that a text stands for. -/
def Separator.ofText (b : Bytes) : Except Bytes Separator :=
  match b with
  | [] => .ok .nothing
  | [' '] => .ok .blanks
  | [c] => .ok (.char c)
  | b => (readRegex b).map .regex

/-- The fields of a text; one without anything in it has none. -/
def Separator.cut (s : Separator) (b : Bytes) : List Bytes :=
  if b.isEmpty then []
  else
    match s with
    | .blanks => words b
    | .nothing => b.map fun c => [c]
    | .char c => b.splitOn c
    | .regex r => cutAtMatches r ⟨List.toArray b, false⟩ (b.length + 1) 0 0

/-- What comes of an attempt to read a record. -/
inductive Reach where
  | record (b rest : Bytes)
  | ended
  | starved

/-- What comes of a text without an end of a record in it. -/
def lastRecord (text : Bytes) (isWhole : Bool) : Reach :=
  if !isWhole then .starved else if text.isEmpty then .ended else .record text []

/-- The text up to an empty line, and what follows. -/
def paragraph (read : Bytes) : Bytes → Option (Bytes × Bytes)
  | '\n' :: '\n' :: cs => some (read.reverse, cs.dropWhile (· == '\n'))
  | c :: cs => paragraph (c :: read) cs
  | [] => none

/-- The next record of a text; `isWhole` tells that nothing more is to come. -/
def nextRecord (separator : Bytes) (text : Bytes) (isWhole : Bool) : Except Bytes Reach :=
  match separator with
  | [] =>
    let text := text.dropWhile (· == '\n')
    match paragraph [] text with
    | some (b, rest) => .ok (.record b rest)
    | none =>
      .ok (lastRecord (if text.getLast? = some '\n' then text.dropLast else text) isWhole)
  | [c] =>
    let b := text.takeWhile (· != c)
    match text.drop b.length with
    | [] => .ok (lastRecord text isWhole)
    | _ :: rest => .ok (.record b rest)
  | separator => do
    let r ← readRegex separator
    let s : Regex.Subject := ⟨List.toArray text, false⟩
    match Regex.search s r 0 with
    | none => return lastRecord text isWhole
    | some m =>
      if m.stop = m.start then return lastRecord text isWhole
      else if m.stop = text.length ∧ !isWhole then return .starved
      else return .record (text.take m.start) (text.drop m.stop)

/-! ## Replacing -/

/-- A replacement for a match: an ampersand stands for the match, unless a backslash
is before it. -/
def replacement (found : Bytes) : Bytes → Bytes
  | '\\' :: '\\' :: '&' :: cs => '\\' :: found ++ replacement found cs
  | '\\' :: '&' :: cs => '&' :: replacement found cs
  | '&' :: cs => found ++ replacement found cs
  | c :: cs => c :: replacement found cs
  | [] => []

/-- A text in which matches from a place on are replaced, and how many were.  An empty
match right behind another one does not count. -/
def replaced (r : Regex) (s : Regex.Subject) (new : Bytes) (all : Bool) :
    Nat → Nat → Option Nat → Bytes × Nat
  | 0, low, _ => (Regex.textOf s low s.text.size, 0)
  | fuel + 1, low, behind =>
    match Regex.search s r low with
    | none => (Regex.textOf s low s.text.size, 0)
    | some m =>
      let front := Regex.textOf s low m.start
      if m.stop = m.start then
        let step := Regex.textOf s m.start (m.start + 1)
        let here := if behind = some m.start then [] else replacement [] new
        let count := if behind = some m.start then 0 else 1
        if s.text.size ≤ m.start then (front ++ here, count)
        else if !all && count = 1 then
          (front ++ here ++ Regex.textOf s m.start s.text.size, 1)
        else
          let rest := replaced r s new all fuel (m.start + 1) none
          (front ++ here ++ step ++ rest.1, count + rest.2)
      else
        let here := replacement (Regex.textOf s m.start m.stop) new
        if !all then (front ++ here ++ Regex.textOf s m.stop s.text.size, 1)
        else
          let rest := replaced r s new all fuel m.stop (some m.stop)
          (front ++ here ++ rest.1, 1 + rest.2)

/-! ## Formats -/

/-- Why a format cannot be filled in. -/
inductive Unfilled where
  | tooFew
  | improper

/-- A size in a directive: digits, or a star for the next value. -/
def formatSize (values : List Cell) : Bytes → Except Unfilled (Option Int × Bytes × List Cell)
  | '*' :: cs =>
    match values with
    | [] => .error .tooFew
    | v :: vs => .ok (some (Cell.truncated v.toNumber), cs, vs)
  | cs =>
    let ds := cs.takeWhile isDigit
    let n : Nat := ds.foldl (fun n c => 10 * n + (c.toNat - 48)) 0
    .ok (if ds.isEmpty then none else some n, cs.drop ds.length, values)

def convert (convfmt : Bytes) (l : Printing.Layout) (letter : Char) (v : Cell) : Option Bytes :=
  match letter with
  | 's' =>
    let b := v.toText convfmt
    some (l.pad (match l.precision with
      | some n => b.take n
      | none => b))
  | 'c' =>
    match v with
    | .number x => some (l.pad [Char.ofNat ((Cell.truncated x) % 256).toNat])
    | v => some (l.pad [((v.toText convfmt).head?).getD '\x00'])
  | 'd' | 'i' =>
    some (Printing.signedText l (max (-(Nat.pow 2 63 : Int)) (Cell.truncated v.toNumber)))
  | 'o' | 'u' | 'x' | 'X' =>
    some (Printing.unsignedText l letter ((Cell.truncated v.toNumber) % Nat.pow 2 64).toNat)
  | 'e' | 'E' | 'f' | 'F' | 'g' | 'G' => some (Printing.floatText l letter v.toNumber)
  | _ => none

/-- The text of a directive behind its percent sign, what follows it in the format,
and the values left. -/
def directive (convfmt : Bytes) (cs : Bytes) (vs : List Cell) :
    Except Unfilled (Bytes × Bytes × List Cell) := do
  let flags := cs.takeWhile fun c => "#-+ 0".toList.contains c
  let (width, rest, vs) ← formatSize vs (cs.drop flags.length)
  let (precision, rest, vs) ← match rest with
    | '.' :: more => do
      let (n, rest, vs) ← formatSize vs more
      pure (some (n.getD 0), rest, vs)
    | rest => pure (none, rest, vs)
  match rest.dropWhile fun c => c == 'l' || c == 'h', vs with
  | _, [] => .error .tooFew
  | [], _ => .error .improper
  | letter :: rest, v :: vs =>
    let width := width.getD 0
    let layout : Printing.Layout :=
      { flags := if width < 0 then '-' :: flags else flags, width := width.natAbs
        precision := precision.bind fun n => if n < 0 then none else some n.toNat }
    match convert convfmt layout letter v with
    | none => .error .improper
    | some b => return (b, rest, vs)

/-- Fill values into a format, as far as that is possible. -/
def filled (convfmt : Bytes) : Nat → Bytes → List Cell → Bytes × Option Unfilled
  | 0, _, _ | _, [], _ => ([], none)
  | fuel + 1, '%' :: '%' :: cs, vs =>
    let r := filled convfmt fuel cs vs
    ('%' :: r.1, r.2)
  | fuel + 1, '%' :: cs, vs =>
    match directive convfmt cs vs with
    | .error reason => ([], some reason)
    | .ok (b, rest, vs) =>
      let r := filled convfmt fuel rest vs
      (b ++ r.1, r.2)
  | fuel + 1, c :: cs, vs =>
    let r := filled convfmt fuel cs vs
    (c :: r.1, r.2)

end Report
end Shell
end CheckScript
