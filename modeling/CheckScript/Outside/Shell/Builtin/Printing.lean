/-
Text for output: with escapes carried out, and with values filled in.
-/
import CheckScript.Outside.Shell.Arithmetic

namespace CheckScript
namespace Shell
namespace Printing

/-! ## Escapes -/

/-- The character of an octal number of three digits at most, and what follows. -/
def octalChar (cs : Bytes) : Char × Bytes :=
  let digits := (cs.take 3).takeWhile fun c => '0' ≤ c && c ≤ '7'
  let n := digits.foldl (fun n c => 8 * n + (c.toNat - 48)) 0
  (Char.ofNat (n % 256), cs.drop digits.length)

/-- The character that stands behind a backslash, and what follows it.  A backslash
before anything else is one itself. -/
def escape : Bytes → Char × Bytes
  | 'a' :: cs => ('\x07', cs)
  | 'b' :: cs => ('\x08', cs)
  | 'e' :: cs => ('\x1b', cs)
  | 'f' :: cs => ('\x0c', cs)
  | 'n' :: cs => ('\n', cs)
  | 'r' :: cs => ('\r', cs)
  | 't' :: cs => ('\t', cs)
  | 'v' :: cs => ('\x0b', cs)
  | '\\' :: cs => ('\\', cs)
  | c :: cs => if '0' ≤ c ∧ c ≤ '7' then octalChar (c :: cs) else ('\\', c :: cs)
  | [] => ('\\', [])

def isOctalDigit (c : Char) : Bool := '0' ≤ c && c ≤ '7'

/-- A text with its escapes carried out, and whether one of them ends all output.
Octal numbers may have a zero in front here. -/
def unescaped : Nat → Bytes → Bytes × Bool
  | 0, _ | _, [] => ([], false)
  | _, ['\\'] => (['\\'], false)
  | _, '\\' :: 'c' :: _ => ([], true)
  | fuel + 1, '\\' :: '0' :: d :: cs =>
    let r := if isOctalDigit d then octalChar (d :: cs) else ('\x00', d :: cs)
    let rest := unescaped fuel r.2
    (r.1 :: rest.1, rest.2)
  | fuel + 1, '\\' :: cs =>
    let r := escape cs
    let rest := unescaped fuel r.2
    (r.1 :: rest.1, rest.2)
  | fuel + 1, c :: cs =>
    let rest := unescaped fuel cs
    (c :: rest.1, rest.2)

def escapesIn (b : Bytes) : Bytes × Bool := unescaped b.length b

/-- Words with blanks between them, up to one that ends the output. -/
def line (ending : Bytes) : List Bytes → Bytes
  | [] => ending
  | w :: ws =>
    let r := escapesIn w
    if r.2 then r.1 else if ws.isEmpty then r.1 ++ ending else r.1 ++ ' ' :: line ending ws

/-- What `echo` writes. -/
def echo (words : List Bytes) : Bytes :=
  match words with
  | ['-', 'n'] :: words => line [] words
  | words => line ['\n'] words

/-! ## Numbers -/

/-- How a value is laid out. -/
structure Layout where
  flags : Bytes
  width : Nat
  precision : Option Nat

namespace Layout

def has (l : Layout) (c : Char) : Bool := l.flags.contains c

/-- Fill up with blanks. -/
def pad (l : Layout) (b : Bytes) : Bytes :=
  let blanks := List.replicate (l.width - b.length) ' '
  if l.has '-' then b ++ blanks else blanks ++ b

/-- Fill up behind the sign with zeros, if they are asked for. -/
def padNumber (l : Layout) (zeros : Bool) (sign digits : Bytes) : Bytes :=
  if zeros && l.has '0' && !l.has '-' then
    sign ++ List.replicate (l.width - sign.length - digits.length) '0' ++ digits
  else l.pad (sign ++ digits)

def signOf (l : Layout) (negative : Bool) : Bytes :=
  if negative then ['-'] else if l.has '+' then ['+'] else if l.has ' ' then [' '] else []

/-- At least as many digits as the precision says; a zero has none at precision
zero. -/
def digitsOf (l : Layout) (digits : Bytes) : Bytes :=
  match l.precision with
  | none => digits
  | some p => if p = 0 && digits == ['0'] then []
    else List.replicate (p - digits.length) '0' ++ digits

end Layout

def signedText (l : Layout) (n : Int) : Bytes :=
  l.padNumber l.precision.isNone (l.signOf (n < 0)) (l.digitsOf (Bytes.ofNat n.natAbs))

def upperHex (b : Bytes) : Bytes :=
  b.map fun c => if 'a' ≤ c ∧ c ≤ 'z' then Char.ofNat (c.toNat - 32) else c

def unsignedText (l : Layout) (letter : Char) (n : Nat) : Bytes :=
  let zeros := l.precision.isNone
  match letter with
  | 'o' =>
    let digits := l.digitsOf (Nat.toDigits 8 n)
    let digits := if l.has '#' && digits.head? != some '0' then '0' :: digits else digits
    l.padNumber zeros [] digits
  | 'u' => l.padNumber zeros [] (l.digitsOf (Bytes.ofNat n))
  | letter =>
    let sign := if l.has '#' && n != 0 then ['0', 'x'] else []
    let digits := l.digitsOf (Nat.toDigits 16 n)
    if letter = 'X' then l.padNumber zeros (upperHex sign) (upperHex digits)
    else l.padNumber zeros sign digits

/-! ## Fractions -/

/-- A quotient rounded to the nearest number, from the middle to an even one. -/
def roundedQuotient (n d : Nat) : Nat :=
  let q := n / d
  let twice := 2 * (n % d)
  if d < twice ∨ (twice = d ∧ q % 2 = 1) then q + 1 else q

/-- The parts of a binary fraction that is finite: its sign, and a quotient. -/
structure Quotient where
  negative : Bool
  top : Nat
  bottom : Nat

def Quotient.ofFloat? (x : Float) : Option Quotient :=
  let bits := x.toBits.toNat
  let mantissa := bits % Nat.pow 2 52
  let exponent := bits / Nat.pow 2 52 % Nat.pow 2 11
  let negative := Nat.pow 2 63 ≤ bits
  if exponent = 2047 then none
  else if exponent = 0 then some ⟨negative, mantissa, Nat.pow 2 1074⟩
  else
    let m := Nat.pow 2 52 + mantissa
    if 1075 ≤ exponent then some ⟨negative, m * Nat.pow 2 (exponent - 1075), 1⟩
    else some ⟨negative, m, Nat.pow 2 (1075 - exponent)⟩

/-- Digits with a point before the last of them. -/
def pointed (keepPoint : Bool) (places n : Nat) : Bytes :=
  let digits := Bytes.ofNat n
  let digits := List.replicate (places + 1 - digits.length) '0' ++ digits
  let whole := digits.take (digits.length - places)
  if places = 0 then (if keepPoint then whole ++ ['.'] else whole)
  else whole ++ '.' :: digits.drop (digits.length - places)

def fixedText (keepPoint : Bool) (places : Nat) (q : Quotient) : Bytes :=
  pointed keepPoint places (roundedQuotient (q.top * Nat.pow 10 places) q.bottom)

/-- The power of ten right at or below a quotient that is not zero. -/
def tenPower (q : Quotient) : Nat → Int → Int
  | 0, e => e
  | fuel + 1, e =>
    let holds (e : Int) : Bool :=
      if 0 ≤ e then q.bottom * Nat.pow 10 e.toNat ≤ q.top
      else q.bottom ≤ q.top * Nat.pow 10 (-e).toNat
    if holds (e + 1) then tenPower q fuel (e + 1)
    else if holds e then e
    else tenPower q fuel (e - 1)

/-- Digits of a quotient, `places` behind the first, and its power of ten. -/
def scaled (places : Nat) (q : Quotient) : Nat × Int :=
  if q.top = 0 then (0, 0)
  else
    let e := tenPower q 800 0
    let shift := (places : Int) - e
    let n := if 0 ≤ shift then roundedQuotient (q.top * Nat.pow 10 shift.toNat) q.bottom
      else roundedQuotient q.top (q.bottom * Nat.pow 10 (-shift).toNat)
    if Nat.pow 10 (places + 1) ≤ n then (n / 10, e + 1) else (n, e)

def exponentText (e : Int) : Bytes :=
  let digits := Bytes.ofNat e.natAbs
  'e' :: (if e < 0 then '-' else '+') :: List.replicate (2 - digits.length) '0' ++ digits

def trimZeros (b : Bytes) : Bytes :=
  if b.contains '.' then
    let back := b.reverse.dropWhile (· == '0')
    (if back.head? = some '.' then back.drop 1 else back).reverse
  else b

def generalText (l : Layout) (precision : Nat) (q : Quotient) : Bytes :=
  let p := max precision 1
  let (n, e) := scaled (p - 1) q
  let trim (b : Bytes) : Bytes := if l.has '#' then b else trimZeros b
  if -4 ≤ e ∧ e < p then trim (fixedText (l.has '#') ((p : Int) - 1 - e).toNat q)
  else trim (pointed (l.has '#') (p - 1) n) ++ exponentText e

def floatText (l : Layout) (letter : Char) (x : Float) : Bytes :=
  let precision := l.precision.getD 6
  let lower := Char.ofNat (if letter < 'a' then letter.toNat + 32 else letter.toNat)
  let text := match Quotient.ofFloat? x with
    | none =>
      let negative := Nat.pow 2 63 ≤ x.toBits.toNat
      l.pad (l.signOf negative ++ (if x.isNaN then "nan" else "inf").toList)
    | some q =>
      let digits := match lower with
        | 'f' => fixedText (l.has '#') precision q
        | 'g' => generalText l precision q
        | _ =>
          let (n, e) := scaled precision q
          pointed (l.has '#') precision n ++ exponentText e
      l.padNumber true (l.signOf q.negative) digits
  if letter < 'a' then upperHex text else text

/-! ## Reading arguments -/

/-- What has been said about an argument. -/
inductive Doubt where
  | noNumber
  | unread
  | tooLarge
deriving DecidableEq, Repr

def Doubt.message : Doubt → String
  | noNumber => "expected numeric value"
  | unread => "not completely converted"
  | tooLarge => "Numerical result out of range"

/-- The number that an argument begins with.  Behind a quote it is that of a
character. -/
def integerArgument (signed : Bool) (b : Bytes) : Int × Option Doubt :=
  match b with
  | '"' :: cs | '\'' :: cs => (((cs.head?.map Char.toNat).getD 0 : Nat), none)
  | b =>
    match Arithmetic.signedNumber? b with
    | none => (0, if b.isEmpty then none else some .noNumber)
    | some (n, rest) =>
      let low : Int := if signed then -(Nat.pow 2 63 : Int) else -((Nat.pow 2 64 : Int) - 1)
      let high : Int := if signed then (Nat.pow 2 63 : Int) - 1 else (Nat.pow 2 64 : Int) - 1
      let clipped := if n < low then (if signed then low else high)
        else if high < n then high else n
      let doubt := if !rest.isEmpty then some .unread
        else if clipped != n then some .tooLarge else none
      (clipped, doubt)

/-- The fraction that an argument begins with. -/
def floatArgument (b : Bytes) : Float × Option Doubt :=
  let b := b.dropWhile Arithmetic.isBlank
  match b with
  | '"' :: cs | '\'' :: cs => (Float.ofNat ((cs.head?.map Char.toNat).getD 0), none)
  | all =>
    let negative := all.head? == some '-'
    let cs := if negative || all.head? == some '+' then all.drop 1 else all
    let sign (x : Float) : Float := if negative then -x else x
    let whole := cs.takeWhile isDigit
    let rest := cs.drop whole.length
    let fraction := match rest with
      | '.' :: more => more.takeWhile isDigit
      | _ => []
    let rest := match rest with
      | '.' :: more => more.drop fraction.length
      | rest => rest
    let value (ds : Bytes) : Nat := ds.foldl (fun n c => 10 * n + (c.toNat - 48)) 0
    if whole.isEmpty && fraction.isEmpty then
      if "inf".toList.isPrefixOf cs then (sign (1.0 / 0.0), none)
      else if "nan".toList.isPrefixOf cs then (sign (0.0 / 0.0), none)
      else (0, if all.isEmpty then none else some .noNumber)
    else
      let (exponent, rest) : Int × Bytes := match rest with
        | 'e' :: '-' :: more | 'E' :: '-' :: more =>
          let ds := more.takeWhile isDigit
          if ds.isEmpty then (0, rest) else (-(value ds : Int), more.drop ds.length)
        | 'e' :: more | 'E' :: more =>
          let more' := if more.head? = some '+' then more.drop 1 else more
          let ds := more'.takeWhile isDigit
          if ds.isEmpty then (0, rest) else ((value ds : Int), more'.drop ds.length)
        | rest => (0, rest)
      let e := exponent - fraction.length
      let digits := value (whole ++ fraction)
      let e := if e < -100000 then -100000 else if 100000 < e then 100000 else e
      let x := if digits = 0 then 0.0
        else Float.ofScientific digits (e < 0) e.natAbs
      (sign x, if rest.isEmpty then none else some .unread)

/-! ## Formats -/

/-- A text that is being made: the arguments left, what is written, the latest
first, and what there is to complain about. -/
structure Progress where
  arguments : List Bytes
  written : List Bytes
  doubts : List (Bytes × Doubt)

/-- Why a format ends the work. -/
inductive Halt where
  | done
  | noDirective
  | badDirective (text : Bytes)

abbrev Formatting := ExceptT Halt (StateM Progress)

def put (b : Bytes) : Formatting Unit := modify fun p => { p with written := b :: p.written }

def argument? : Formatting (Option Bytes) := do
  let p ← get
  match p.arguments with
  | [] => return none
  | a :: rest =>
    set { p with arguments := rest }
    return some a

def note (a : Bytes) (doubt : Option Doubt) : Formatting Unit :=
  match doubt with
  | some d => modify fun p => { p with doubts := (a, d) :: p.doubts }
  | none => return ()

def integer (signed : Bool) : Formatting Int := do
  match ← argument? with
  | none => return 0
  | some a =>
    let r := integerArgument signed a
    note a r.2
    return r.1

/-- A width or precision: digits, or a star for the next argument. -/
def size : Bytes → Formatting (Option Int × Bytes × Bytes)
  | '*' :: cs => do
    let n ← integer true
    return (some n, ['*'], cs)
  | cs => do
    let ds := cs.takeWhile isDigit
    let n := if ds.isEmpty then none
      else some (ds.foldl (fun n c => 10 * n + (c.toNat - 48)) 0 : Nat)
    return (n.map fun n => (n : Int), ds, cs.drop ds.length)

def convert (l : Layout) (letter : Char) (directive : Bytes) : Formatting Unit := do
  match letter with
  | 's' =>
    let a := (← argument?).getD []
    put (l.pad (match l.precision with
      | some n => a.take n
      | none => a))
  | 'b' =>
    let r := escapesIn ((← argument?).getD [])
    put (l.pad (match l.precision with
      | some n => r.1.take n
      | none => r.1))
    if r.2 then throw .done
  | 'c' => put (l.pad [((← argument?).bind List.head?).getD '\x00'])
  | 'd' | 'i' => put (signedText l (← integer true))
  | 'o' | 'u' | 'x' | 'X' => put (unsignedText l letter (((← integer false) % Nat.pow 2 64).toNat))
  | 'e' | 'E' | 'f' | 'F' | 'g' | 'G' =>
    let x ← match ← argument? with
      | none => pure 0.0
      | some a =>
        let r := floatArgument a
        note a r.2
        pure r.1
    put (floatText l letter x)
  | _ => throw (.badDirective directive)

/-- Fill in a directive behind its percent sign. -/
def directive (cs : Bytes) : Formatting Bytes := do
  let flags := cs.takeWhile fun c => "#-+ 0".toList.contains c
  let (width, widthText, rest) ← size (cs.drop flags.length)
  let (precision, precisionText, rest) ← match rest with
    | '.' :: more => do
      let (n, text, rest) ← size more
      pure (some (n.getD 0), '.' :: text, rest)
    | rest => pure (none, [], rest)
  match rest with
  | [] => throw .noDirective
  | letter :: rest =>
    let width := width.getD 0
    let layout : Layout :=
      { flags := if width < 0 then '-' :: flags else flags, width := width.natAbs
        precision := precision.bind fun n => if n < 0 then none else some n.toNat }
    convert layout letter ('%' :: flags ++ widthText ++ precisionText ++ [letter])
    return rest

/-- Go once through a format. -/
def once : Nat → Bytes → Formatting Unit
  | 0, _ | _, [] => return ()
  | fuel + 1, '\\' :: cs => do
    let r := escape cs
    put [r.1]
    once fuel r.2
  | fuel + 1, '%' :: '%' :: cs => do
    put ['%']
    once fuel cs
  | fuel + 1, '%' :: cs => do
    let rest ← directive cs
    once fuel rest
  | fuel + 1, c :: cs => do
    put [c]
    once fuel cs

/-- Go through a format again as long as it takes arguments and some are left. -/
def again (format : Bytes) : Nat → Formatting Unit
  | 0 => return ()
  | fuel + 1 => do
    let before := (← get).arguments.length
    once format.length format
    let left := (← get).arguments.length
    if left = 0 ∨ left = before then return () else again format fuel

/-- A format with arguments filled in. -/
def printf (format : Bytes) (arguments : List Bytes) : Halt × Progress :=
  let r := (again format (arguments.length + 1)).run.run ⟨arguments, [], []⟩
  (match r.1 with
    | .ok _ => .done
    | .error h => h, r.2)

end Printing
end Shell
end CheckScript
