/-
Values at dotted paths inside a record.
-/
import CheckScript.Integer
import CheckScript.Record.Basic
import CheckScript.Text.Blank
import CheckScript.Text.Lines

namespace CheckScript
namespace RecordValue

/-- Go down one level: into a field by its name, into an item by its number. -/
def step (v : RecordValue) (segment : String) : Option RecordValue :=
  match v with
  | .tuple fields => lookup segment fields
  | .list items => (Integer.word? 64 segment.toList).bind fun i => items[i]?
  | .const _ => none

def follow (v : RecordValue) : List String → Option RecordValue
  | [] => some v
  | segment :: segments => (v.step segment).bind fun w => follow w segments

/-- The steps of a path.  Empty segments are no steps. -/
def segments (path : String) : List String :=
  ((Text.cut '.' path.toList).filter (! ·.isEmpty)).map String.ofList

def find? (v : RecordValue) (path : String) : Option RecordValue := v.follow (segments path)

end RecordValue

namespace Record

def find? (r : Record) (path : String) : Option RecordValue := r.results.find? path

def findString? (r : Record) (path : String) : Option String :=
  (r.find? path).bind RecordValue.const?

/-- The integer that a text spells, blanks around it apart. -/
def integerOf? (s : String) : Option Int := Integer.signed? (Text.trimChars s.toList)

def findInt? (r : Record) (path : String) : Option Int := (r.findString? path).bind integerOf?

end Record
end CheckScript
