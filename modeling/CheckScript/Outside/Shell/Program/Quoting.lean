/-
Names in messages, quoted so that a shell would read them back.
-/
import CheckScript.Outside.Shell.Syntax

namespace CheckScript
namespace Shell
namespace Quoting

def isPrintable (c : Char) : Bool := ' ' ≤ c && c ≤ '~'

/-- Whether a name with `c` in it needs quotes. -/
def isSigned (c : Char) : Bool :=
  !isPrintable c || c.toNat = 96 || " !\"$&'()*;<=>?[\\^|".toList.contains c

def needsQuotes (name : Bytes) : Bool :=
  name.isEmpty || name.any isSigned || name == ['\x7b'] || name == ['\x7d'] ||
    name.head? == some '#' || name.head? == some '~'

/-- Whether a name with an apostrophe may be quoted as a whole by double quotes. -/
def isMild (c : Char) : Bool :=
  isNameChar c || "%+,-./:@] '#~\x7b\x7d".toList.contains c

def octal (c : Char) : Bytes :=
  let n := c.toNat
  ['\\', Char.ofNat (48 + n / 64), Char.ofNat (48 + n / 8 % 8), Char.ofNat (48 + n % 8)]

def control (c : Char) : Bytes :=
  match c with
  | '\x07' => ['\\', 'a']
  | '\x08' => ['\\', 'b']
  | '\t' => ['\\', 't']
  | '\n' => ['\\', 'n']
  | '\x0b' => ['\\', 'v']
  | '\x0c' => ['\\', 'f']
  | '\r' => ['\\', 'r']
  | c => octal c

/-- The characters between single quotes.  Those that cannot be printed stand in
quotations of their own. -/
def inside (escaping : Bool) : Bytes → Bytes
  | [] => []
  | c :: cs =>
    if isPrintable c then
      let start := if escaping then ['\'', '\''] else []
      let shown := if c = '\'' then ['\'', '\\', '\'', '\''] else [c]
      start ++ shown ++ inside false cs
    else
      let start := if escaping then [] else ['\'', '$', '\'']
      start ++ control c ++ inside true cs

/-- A name between quotes. -/
def always (name : Bytes) : Bytes :=
  if name.contains '\'' && name.all isMild then ['"'] ++ name ++ ['"']
  else ['\''] ++ inside false name ++ ['\'']

/-- A name between quotes only if it needs them. -/
def ifNeeded (name : Bytes) : Bytes := if needsQuotes name then always name else name

end Quoting
end Shell
end CheckScript
