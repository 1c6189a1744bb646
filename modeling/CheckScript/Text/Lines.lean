/-
Text as lines, and its pieces between separators.
-/

namespace CheckScript
namespace Text

/-- The pieces of `cs` between the occurrences of `sep`: always one more than
there are occurrences. -/
def cut (sep : Char) : List Char → List (List Char)
  | [] => [[]]
  | c :: cs =>
    if c = sep then [] :: cut sep cs
    else match cut sep cs with
      | [] => [[c]]
      | p :: ps => (c :: p) :: ps

/-- Drop one carriage return from the end. -/
def dropReturn (cs : List Char) : List Char :=
  if cs.getLast? = some '\r' then cs.dropLast else cs

/-- The pieces between newlines, read as lines.  Every piece but the last was
ended by a newline and loses the carriage return before it.  The last piece is
a line only if something stands on it, and keeps all of it. -/
def endLines : List (List Char) → List (List Char)
  | [] => []
  | [last] => if last.isEmpty then [] else [last]
  | p :: q :: ps => dropReturn p :: endLines (q :: ps)

def lineChars (cs : List Char) : List (List Char) := endLines (cut '\n' cs)

def lines (s : String) : List String := (lineChars s.toList).map String.ofList

/-- The number of lines begun before the end of `cs`, less one. -/
def newlines (cs : List Char) : Nat := cs.count '\n'

def startsWith (s start : String) : Bool := start.toList.isPrefixOf s.toList

/-- Whether `needle` occurs in `cs`. -/
def occursIn (needle : List Char) : List Char → Bool
  | [] => needle.isEmpty
  | c :: cs => needle.isPrefixOf (c :: cs) || occursIn needle cs

def contains (s needle : String) : Bool := occursIn needle.toList s.toList

def joinWith (sep : String) (parts : List String) : String := sep.intercalate parts

end Text
end CheckScript
