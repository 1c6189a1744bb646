/-
Bytes shown in other characters.
-/
import CheckScript.Outside.Shell.Program.Text

namespace CheckScript
namespace Shell
namespace Job

def letters64 : Bytes :=
  "ABCDEFGHIJKLMNOPQRSTUVWXYZabcdefghijklmnopqrstuvwxyz0123456789+/".toList

def letter64 (n : Nat) : Char := letters64[n % 64]?.getD '='

def encode64 : Bytes → Bytes
  | a :: b :: c :: rest =>
    let n := (a.toNat * 256 + b.toNat) * 256 + c.toNat
    [letter64 (n / 262144), letter64 (n / 4096), letter64 (n / 64), letter64 n] ++ encode64 rest
  | [a, b] =>
    let n := (a.toNat * 256 + b.toNat) * 4
    [letter64 (n / 4096), letter64 (n / 64), letter64 n, '=']
  | [a] => [letter64 (a.toNat / 4), letter64 (a.toNat * 16), '=', '=']
  | [] => []

def decode64 : Bytes → Option Bytes
  | a :: b :: c :: d :: rest => do
    let x ← letters64.findIdx? (· == a)
    let y ← letters64.findIdx? (· == b)
    let first := Char.ofNat (x * 4 + y / 16)
    match c, d with
    | '=', '=' => return [first]
    | c, '=' =>
      let z ← letters64.findIdx? (· == c)
      return [first, Char.ofNat (y % 16 * 16 + z / 4)]
    | c, d =>
      let z ← letters64.findIdx? (· == c)
      let w ← letters64.findIdx? (· == d)
      return first :: Char.ofNat (y % 16 * 16 + z / 4) :: Char.ofNat (z % 4 * 64 + w) ::
        (← decode64 rest)
  | [] => some []
  | _ => none

/-- Cut into lines of a width. -/
def inRows (width : Nat) (b : Bytes) : Nat → List Bytes
  | 0 => []
  | fuel + 1 =>
    if b.isEmpty then []
    else if width = 0 then [b]
    else b.take width :: inRows width (b.drop width) fuel

def base64 : Job Unit := do
  let g ← given 1 "di" "w" [("decode", 'd'), ("wrap", 'w')]
  let name := g.operands.head?.getD ['-']
  match ← readOperand name with
  | .error "Is a directory" => giveUp 1 "read error: Is a directory".toList
  | .error reason => giveUp 1 (Quoting.ifNeeded name ++ ": ".toList ++ reason.toList)
  | .ok b =>
    if g.has 'd' then
      match decode64 (b.filter (· != '\n')) with
      | some text => print text
      | none => giveUp 1 "invalid input".toList
    else
      let width := ((g.value? 'w').bind natural?).getD 76
      let ending := if width = 0 then [] else ['\n']
      print ((inRows width (encode64 b) (2 * b.length + 2)).flatMap (· ++ ending))

def octalDigits (width n : Nat) : Bytes :=
  let digits := Nat.toDigits 8 n
  List.replicate (width - digits.length) '0' ++ digits

def hexDigits (width n : Nat) : Bytes :=
  let digits := Nat.toDigits 16 n
  List.replicate (width - digits.length) '0' ++ digits

/-- A byte as a character, as a backslash and a letter, or in octal. -/
def shownChar (c : Char) : Bytes :=
  match c with
  | '\x00' => "\\0".toList
  | '\x07' => "\\a".toList
  | '\x08' => "\\b".toList
  | '\t' => "\\t".toList
  | '\n' => "\\n".toList
  | '\x0b' => "\\v".toList
  | '\x0c' => "\\f".toList
  | '\r' => "\\r".toList
  | c => if ' ' ≤ c ∧ c ≤ '~' then [c] else octalDigits 3 c.toNat

/-- How the bytes of a row are shown: by one, or by two as words. -/
def dumpRow (style : Char) (size : Nat) (row : Bytes) : Bytes :=
  let cells := inRows size row (row.length + 1)
  let value (b : Bytes) : Nat := b.reverse.foldl (fun n c => 256 * n + c.toNat) 0
  cells.flatMap fun cell =>
    match style with
    | 'c' => padStart 4 (cell.flatMap shownChar)
    | 'x' => ' ' :: hexDigits (2 * size) (value cell)
    | 'o' => ' ' :: octalDigits (if size = 1 then 3 else 6) (value cell)
    | _ => padStart (if size = 1 then 4 else 6) (Bytes.ofNat (value cell))

def dumpRows (address : Nat → Bytes) (style : Char) (size offset : Nat) : List Bytes → Bytes
  | [] => (let last := address offset; if last.isEmpty then [] else last ++ ['\n'])
  | row :: rows =>
    address offset ++ dumpRow style size row ++ ['\n'] ++
      dumpRows address style size (offset + row.length) rows

def od : Job Unit := do
  let g ← given 1 "cbxovd" "AtNjw" [("address-radix", 'A'), ("format", 't')]
  let (style, size) :=
    if g.has 'c' then ('c', 1)
    else if g.has 'b' then ('o', 1)
    else if g.has 'x' then ('x', 2)
    else if g.has 'd' then ('u', 2)
    else match g.value? 't' with
      | some (letter :: digits) =>
        (letter, if letter = 'c' then 1 else (natural? digits).getD 4)
      | _ => ('o', 2)
  let address (n : Nat) : Bytes := match g.value? 'A' with
    | some ['n'] => []
    | some ['x'] => hexDigits 6 n
    | some ['d'] => (let digits := Bytes.ofNat n; List.replicate (7 - digits.length) '0' ++ digits)
    | _ => octalDigits 7 n
  let parts ← (sources g).mapM fun n => do
    match ← readOperand n with
    | .ok b => pure b
    | .error reason =>
      warn 1 (Quoting.ifNeeded n ++ ": ".toList ++ reason.toList)
      pure []
  let b := parts.flatten
  let b := match (g.value? 'N').bind natural? with
    | some n => b.take n
    | none => b
  print (dumpRows address style size 0 (inRows 16 b (b.length + 1)))

end Job
end Shell
end CheckScript
