/-
Letters and word characters, in all scripts.  The ASCII part is tested first,
since nearly every character of a source file is ASCII.
-/
import CheckScript.Text.Range

namespace CheckScript
namespace Text

def isAsciiLetter (c : Char) : Bool :=
  ('a' ≤ c && c ≤ 'z') || ('A' ≤ c && c ≤ 'Z')

def isDigit (c : Char) : Bool := '0' ≤ c && c ≤ '9'

def isAscii (c : Char) : Bool := c.toNat < 128

/-- Whether `c` may begin a name, the underscore left to the caller. -/
def isLetter (c : Char) : Bool :=
  if isAscii c then isAsciiLetter c else inRanges alphabeticRanges c

/-- Whether `c` may continue a name, the underscore left to the caller. -/
def isWordChar (c : Char) : Bool :=
  if isAscii c then isAsciiLetter c || isDigit c
  else inRanges alphabeticRanges c || inRanges numericRanges c

def isNameStart (c : Char) : Bool := isLetter c || c == '_'

def isNameChar (c : Char) : Bool := isWordChar c || c == '_'

end Text
end CheckScript
