/-
Values of scripts.
-/
import CheckScript.Integer
import CheckScript.Record.Json
import CheckScript.Source.Tags
import CheckScript.Text.Quoted

namespace CheckScript
namespace Script

/-- What messages call the type of a value. -/
inductive ValueKind where
  | null
  | bool
  | int
  | str
  | list
  | map
  | record
  | recordList
  | recordTuple
deriving DecidableEq, Repr

namespace ValueKind

def name : ValueKind → String
  | null => "null"
  | bool => "bool"
  | int => "int"
  | str => "string"
  | list => "list"
  | map => "map"
  | record => "record"
  | recordList => "record list"
  | recordTuple => "record tuple"

end ValueKind

/-- The only maps are line tags.  A node is a tuple or list inside a record; a
constant becomes a string. -/
inductive Value where
  | null
  | bool (b : Bool)
  | int (n : Int)
  | str (s : String)
  | list (items : List Value)
  | map (tags : LineTags)
  | record (r : Record)
  | node (v : RecordValue)

namespace Value

def ofRecordValue : RecordValue → Value
  | .const s => .str s
  | v => .node v

def kind : Value → ValueKind
  | null => .null
  | bool _ => .bool
  | int _ => .int
  | str _ => .str
  | list _ => .list
  | map _ => .map
  | record _ => .record
  | node (.list _) => .recordList
  | node _ => .recordTuple

/- Equality, by recursion on the first value.  Values of different types are
different. -/
mutual

def same : Value → Value → Bool
  | .null, .null => true
  | .bool a, .bool b => a == b
  | .int m, .int n => m == n
  | .str s, .str t => s == t
  | .list vs, .list ws => sameItems vs ws
  | .map a, .map b => a == b
  | .record a, .record b => a == b
  | .node v, .node w => v == w
  | _, _ => false

def sameItems : List Value → List Value → Bool
  | [], [] => true
  | v :: vs, w :: ws => same v w && sameItems vs ws
  | _, _ => false

end

mutual

theorem same_iff (v w : Value) : same v w = true ↔ v = w := by
  cases v <;> cases w <;> simp [same]
  exact sameItems_iff _ _

theorem sameItems_iff (vs ws : List Value) : sameItems vs ws = true ↔ vs = ws := by
  match vs, ws with
  | [], [] => simp [sameItems]
  | [], _ :: _ => simp [sameItems]
  | _ :: _, [] => simp [sameItems]
  | v :: vs, w :: ws => simp [sameItems, same_iff v w, sameItems_iff vs ws]

end

instance : DecidableEq Value := fun v w => decidable_of_iff (same v w = true) (same_iff v w)

/-- Line tags as a script sees them. -/
def tagsText (tags : LineTags) : String :=
  "\x7b" ++ Text.joinWith ", " (tags.entries.map fun e => s!"{e.1}: {e.2}") ++ "\x7d"

/- The text of a value.  Inside lists strings are quoted, so that the items can
be told apart. -/
mutual

def text : Value → String
  | .null => "null"
  | .bool b => if b then "true" else "false"
  | .int n => toString n
  | .str s => s
  | .list items => "[" ++ Text.joinWith ", " (quotedItems items) ++ "]"
  | .map tags => tagsText tags
  | .record r => r.line
  | .node v => v.text

def quoted : Value → String
  | .str s => Text.Quoted.encode s
  | v => text v

def quotedItems : List Value → List String
  | [] => []
  | v :: vs => quoted v :: quotedItems vs

end

/-- A value and its type, as failed comparisons show it. -/
def description (v : Value) : String := s!"{v.quoted} ({v.kind.name})"

end Value
end Script
end CheckScript
