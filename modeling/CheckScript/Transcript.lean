/-
What one test sent, received and logged, in order.
-/

namespace CheckScript

inductive Entry where
  | sent (text : String)
  | received (text : String)
  | note (text : String)
deriving DecidableEq, Repr

namespace Entry

def line : Entry → String
  | sent text => "< " ++ text
  | received text => "> " ++ text
  | note text => text

end Entry

structure Transcript where
  entries : Array Entry
deriving DecidableEq, Repr

namespace Transcript

def empty : Transcript := ⟨#[]⟩

def push (t : Transcript) (e : Entry) : Transcript := ⟨t.entries.push e⟩

def isEmpty (t : Transcript) : Bool := t.entries.isEmpty

def size (t : Transcript) : Nat := t.entries.size

def lines (t : Transcript) : List String := t.entries.toList.map Entry.line

def contents (t : Transcript) : String := "\n".intercalate t.lines

end Transcript
end CheckScript
