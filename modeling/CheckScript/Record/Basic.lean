/-
Records: the structured form of a debugger's output lines.
-/

namespace CheckScript

/-- A value inside a record.  Fields keep their order, and names may repeat. -/
inductive RecordValue where
  | const (text : String)
  | tuple (fields : List (String × RecordValue))
  | list (items : List RecordValue)

namespace RecordValue

/- Equality, by recursion on the first value. -/
mutual

def same : RecordValue → RecordValue → Bool
  | .const s, .const t => s == t
  | .tuple fs, .tuple gs => sameFields fs gs
  | .list vs, .list ws => sameItems vs ws
  | _, _ => false

def sameFields : List (String × RecordValue) → List (String × RecordValue) → Bool
  | [], [] => true
  | (m, v) :: fs, (n, w) :: gs => m == n && same v w && sameFields fs gs
  | _, _ => false

def sameItems : List RecordValue → List RecordValue → Bool
  | [], [] => true
  | v :: vs, w :: ws => same v w && sameItems vs ws
  | _, _ => false

end

mutual

theorem same_iff (v w : RecordValue) : same v w = true ↔ v = w := by
  cases v <;> cases w <;> simp [same]
  · exact sameFields_iff _ _
  · exact sameItems_iff _ _

theorem sameFields_iff (fs gs : List (String × RecordValue)) :
    sameFields fs gs = true ↔ fs = gs := by
  match fs, gs with
  | [], [] => simp [sameFields]
  | [], _ :: _ => simp [sameFields]
  | _ :: _, [] => simp [sameFields]
  | (m, v) :: fs, (n, w) :: gs =>
    simp [sameFields, same_iff v w, sameFields_iff fs gs]

theorem sameItems_iff (vs ws : List RecordValue) : sameItems vs ws = true ↔ vs = ws := by
  match vs, ws with
  | [], [] => simp [sameItems]
  | [], _ :: _ => simp [sameItems]
  | _ :: _, [] => simp [sameItems]
  | v :: vs, w :: ws => simp [sameItems, same_iff v w, sameItems_iff vs ws]

end

instance : DecidableEq RecordValue := fun v w => decidable_of_iff (same v w = true) (same_iff v w)

/-- The value of the first field with this name. -/
def lookup (name : String) : List (String × RecordValue) → Option RecordValue
  | [] => none
  | (n, v) :: fields => if n = name then some v else lookup name fields

def field? (v : RecordValue) (name : String) : Option RecordValue :=
  match v with
  | .tuple fields => lookup name fields
  | _ => none

def const? : RecordValue → Option String
  | .const s => some s
  | _ => none

end RecordValue

inductive RecordKind where
  | result
  | exec
  | status
  | notify
  | console
  | target
  | log
  | prompt
  | raw
deriving DecidableEq, Repr

namespace RecordKind

def name : RecordKind → String
  | result => "result"
  | exec => "exec"
  | status => "status"
  | notify => "notify"
  | console => "console"
  | target => "target"
  | log => "log"
  | prompt => "prompt"
  | raw => "raw"

end RecordKind

/-- A line of output as a record.  Only results and asynchronous records have a
class, only streams and unstructured lines have a text. -/
structure Record where
  line : String
  token : Option Nat
  kind : RecordKind
  className : String
  results : RecordValue
  text : Option String
deriving DecidableEq

namespace Record

/-- A line without further structure. -/
def raw (line : String) : Record :=
  { line, token := none, kind := .raw, className := "", results := .tuple [], text := some line }

def prompt (line : String) : Record := { raw line with kind := .prompt, text := none }

def stream (line : String) (kind : RecordKind) (text : String) : Record :=
  { raw line with kind, text := some text }

end Record
end CheckScript
