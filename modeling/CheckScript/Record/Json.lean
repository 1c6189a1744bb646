/-
Records as JSON.  Tuples become objects that keep repeated names.
-/
import CheckScript.Json
import CheckScript.Record.Basic

namespace CheckScript
namespace RecordValue

mutual

def json : RecordValue → Json
  | .const s => .string s
  | .tuple fields => .object (jsonFields fields)
  | .list items => .array (jsonItems items)

def jsonFields : List (String × RecordValue) → List (String × Json)
  | [] => []
  | (name, v) :: fields => (name, json v) :: jsonFields fields

def jsonItems : List RecordValue → List Json
  | [] => []
  | v :: items => json v :: jsonItems items

end

def text (v : RecordValue) : String := v.json.compact

end RecordValue

namespace Record

def json (r : Record) : Json :=
  .object ([("line", .string r.line),
    ("token", match r.token with | none => .null | some n => .number n),
    ("kind", .string r.kind.name),
    ("class", .string r.className),
    ("results", r.results.json)] ++
    match r.text with | none => [] | some t => [("text", .string t)])

end Record
end CheckScript
