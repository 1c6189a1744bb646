/-
Texts with numbered places for values.
-/
import CheckScript.Script.Fault
import CheckScript.Text.Blank

namespace CheckScript
namespace Script

/-- The value for the place that `text` names, as text. -/
def placeholder (args : List Value) (text : List Char) : Except Fault String :=
  match Integer.word? 64 (Text.trimChars text) with
  | none => .error (.badPlaceholder (String.ofList text))
  | some i =>
    match args[i]? with
    | none => .error (.placeholderOutOfRange i args.length)
    | some v => .ok v.text

/-- Put the values in their places.  A doubled brace stands for a brace, and a
closing brace that opens nothing for itself. -/
def fill (args : List Value) (cs : List Char) : Except Fault (List Char) :=
  match cs with
  | [] => .ok []
  | '{' :: '{' :: rest => (fill args rest).map ('{' :: ·)
  | '}' :: '}' :: rest => (fill args rest).map ('}' :: ·)
  | '{' :: rest =>
    match h : rest.dropWhile (· != '}') with
    | [] => .error .openPlaceholder
    | _ :: after =>
      match placeholder args (rest.takeWhile (· != '}')) with
      | .error fault => .error fault
      | .ok text =>
        have : after.length < rest.length := by
          have hle := (List.dropWhile_suffix (· != '}') (l := rest)).length_le
          rw [h] at hle
          exact hle
        (fill args after).map (text.toList ++ ·)
  | c :: rest => (fill args rest).map (c :: ·)
termination_by cs.length

def format (template : String) (args : List Value) : Except Fault String :=
  (fill args template.toList).map String.ofList

end Script
end CheckScript
