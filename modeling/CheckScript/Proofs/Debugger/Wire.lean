/-
The mock debugger's lines, read as records.

The mock writes its lines with quotes, braces and commas that it puts there by hand, and the
reader of records knows nothing of the mock.  Each writer of the mock is tied to the part of the
grammar that it writes, and from these every answer is read as the records that it was written
for (`answer_answers`).
-/
import CheckScript.Debugger.Mock
import CheckScript.Proofs.Record.Written
import Mathlib.Data.List.Forall2

namespace CheckScript
namespace Mi

theorem Quoted.append {a b inner more : List Char} (ha : Quoted a inner) (hb : Quoted b more) :
    Quoted (a ++ b) (inner ++ more) := by
  induction ha with
  | nil => exact hb
  | plain hquote hslash _ ih => exact .plain hquote hslash ih
  | escape hc _ ih => exact .escape hc ih

end Mi

namespace Mock

/-! ## Texts between quotes -/

/-- Whether a text needs no backslash between quotes. -/
def isPlain (cs : List Char) : Bool := cs.all fun c => c != '"' && c != '\\'

theorem quoted_of_isPlain {cs : List Char} (h : isPlain cs = true) : Mi.Quoted cs cs := by
  induction cs with
  | nil => exact .nil
  | cons c cs ih =>
    simp only [isPlain, List.all_cons, Bool.and_eq_true, bne_iff_ne] at h
    exact .plain h.1.1 h.1.2 (ih h.2)

theorem quoted_toString (n : Nat) : Mi.Quoted (toString n).toList (toString n).toList := by
  refine quoted_of_isPlain (List.all_eq_true.mpr fun c hc => ?_)
  have hdigit : Text.isDigit c = true := Integer.isDigit_of_mem_toDigits (n := n) (by
    rwa [← Nat.toList_repr])
  rw [Bool.and_eq_true, bne_iff_ne, bne_iff_ne]
  constructor <;> rintro rfl <;> exact Bool.noConfusion hdigit

theorem escape_eq_escaped (cs : List Char) : (escape cs).toList = Mi.escaped cs := by
  rw [escape, String.toList_ofList]
  induction cs with
  | nil => rfl
  | cons c cs ih =>
    rw [List.flatMap_cons, ih, Mi.escaped]
    by_cases hslash : c = '\\'
    · subst hslash
      rfl
    by_cases hquote : c = '"'
    · subst hquote
      rfl
    rw [escapeChar.eq_3 c hslash hquote, if_neg (not_or.mpr ⟨hquote, hslash⟩)]
    rfl

theorem escape_quoted (cs : List Char) : Mi.Quoted cs (escape cs).toList := by
  rw [escape_eq_escaped]
  exact Mi.escaped_quoted cs

/-! ## Fields, tuples and lists -/

/-- A text is a text of a field. -/
def Writes (f : String × RecordValue) (text : String) : Prop := Mi.FieldText f text.toList

theorem writes_named {name label text : String} {v : RecordValue} (hname : Mi.IsName name.toList)
    (hlabel : label.toList = name.toList ++ ['=']) (h : Mi.ValueText v text.toList) :
    Writes (name, v) (label ++ text) := by
  have htext := Mi.FieldText.named hname h
  rw [String.ofList_toList] at htext
  rw [Writes, String.toList_append, hlabel, List.append_assoc]
  exact htext

theorem writes_field {name value : String} {text : List Char} (hname : Mi.IsName name.toList)
    (h : Mi.Quoted text value.toList) :
    Writes (name, .const (String.ofList text)) (field name value) := by
  have htext := Mi.FieldText.named hname (Mi.ValueText.const h)
  rw [String.ofList_toList] at htext
  have hfield : (field name value).toList =
      name.toList ++ '=' :: '"' :: (value.toList ++ ['"']) := by
    simp only [field, String.toList_append, List.append_assoc]
    rfl
  rwa [Writes, hfield]

theorem writes_plain {name value : String} (hname : Mi.IsName name.toList)
    (h : isPlain value.toList = true) : Writes (name, .const value) (field name value) := by
  have hwrites := writes_field hname (quoted_of_isPlain h)
  rwa [String.ofList_toList] at hwrites

theorem writes_number {name : String} (hname : Mi.IsName name.toList) (n : Nat) :
    Writes (name, .const (toString n)) (field name (toString n)) := by
  have hwrites := writes_field hname (quoted_toString n)
  rwa [String.ofList_toList] at hwrites

theorem writes_file {name : String} (hname : Mi.IsName name.toList) (file : String) :
    Writes (name, .const file) (field name (escape file.toList)) := by
  have hwrites := writes_field hname (escape_quoted file.toList)
  rwa [String.ofList_toList] at hwrites

theorem joined_text {fs : List (String × RecordValue)} {texts : List String}
    (h : List.Forall₂ Writes fs texts) (hne : fs ≠ []) :
    Mi.FieldsText fs (Text.joinWith "," texts).toList := by
  rw [Text.joinWith, String.toList_intercalate]
  induction h with
  | nil => exact absurd rfl hne
  | @cons f text fs texts hf hs ih =>
    cases hs with
    | nil =>
      rw [List.map_singleton, List.intercalate_singleton]
      exact .one hf
    | cons hg hs =>
      rw [List.map_cons, List.intercalate_cons_of_ne_nil (by simp), List.append_assoc]
      exact .more hf (ih (List.cons_ne_nil _ _))

theorem tuple_text {fs : List (String × RecordValue)} {texts : List String}
    (h : List.Forall₂ Writes fs texts) (hne : fs ≠ []) :
    Mi.ValueText (.tuple fs) (tuple texts).toList := by
  have htuple : (tuple texts).toList = '{' :: ((Text.joinWith "," texts).toList ++ ['}']) := by
    simp only [tuple, String.toList_append, List.append_assoc]
    rfl
  rw [htuple]
  exact .fields (joined_text h hne)

theorem list_text {fs : List (String × RecordValue)} {texts : List String}
    (h : List.Forall₂ Writes fs texts) :
    Mi.ValueText (.list (fs.map fun f => .tuple [f])) (list texts).toList := by
  have hlist : (list texts).toList = '[' :: ((Text.joinWith "," texts).toList ++ [']']) := by
    simp only [list, String.toList_append, List.append_assoc]
    rfl
  cases h with
  | nil => exact .noItems
  | cons hf hs =>
    rw [hlist]
    exact .namedItems (joined_text (.cons hf hs) (List.cons_ne_nil _ _))

theorem results_text {fs : List (String × RecordValue)} {texts : List String}
    (h : List.Forall₂ Writes fs texts) :
    Mi.ResultsText fs (texts.flatMap fun text => ',' :: text.toList) := by
  induction h with
  | nil => exact .nil
  | cons hf _ ih => exact .cons hf ih

/-! ## Lines and the records that they say -/

/-- A line is accepted, and is read as `r` but for the line that a record keeps of itself. -/
def Reads (line : String) (r : Record) : Prop := Mi.read line = .ok { r with line }

def resultRecord (digits : List Char) (className : String)
    (fields : List (String × RecordValue)) : Record :=
  { line := "", token := Mi.tokenOf digits, kind := .result, className,
    results := .tuple fields, text := none }

def errorRecord (digits : List Char) (message : String) : Record :=
  resultRecord digits "error" [("msg", .const message)]

def execRecord (className : String) (fields : List (String × RecordValue)) : Record :=
  { line := "", token := none, kind := .exec, className, results := .tuple fields, text := none }

section
variable {digits : List Char} (hdigits : ∀ c ∈ digits, Text.isDigit c = true)
include hdigits

theorem result_reads {className line : String} {fs : List (String × RecordValue)}
    {texts : List String} (hknown : className ∈ Mi.resultClasses)
    (h : List.Forall₂ Writes fs texts)
    (hline : line.toList =
      digits ++ '^' :: (className.toList ++ texts.flatMap fun text => ',' :: text.toList)) :
    Reads line (resultRecord digits className fs) := by
  obtain ⟨hnonempty, hcomma, hreturn⟩ := Mi.resultClasses_plain _ hknown
  have hkind : RecordKind.result ∈ Mi.classKinds := by decide
  exact Mi.read_line hdigits hkind rfl hnonempty hcomma hreturn (fun _ => hknown)
    (results_text h) hline

theorem bare_reads {className line : String} (hknown : className ∈ Mi.resultClasses)
    (hline : line.toList = digits ++ '^' :: className.toList) :
    Reads line (resultRecord digits className []) :=
  result_reads hdigits hknown .nil (by rw [hline, List.flatMap_nil, List.append_nil])

theorem field_reads {className line text : String} {f : String × RecordValue}
    (hknown : className ∈ Mi.resultClasses) (h : Writes f text)
    (hline : line.toList = digits ++ '^' :: (className.toList ++ ',' :: text.toList)) :
    Reads line (resultRecord digits className [f]) :=
  result_reads hdigits hknown (.cons h .nil) (by
    rw [hline, List.flatMap_cons, List.flatMap_nil, List.append_nil])

/-- The answer to a command that has been done, with `label` up to the equals sign. -/
theorem done_reads {name label text : String} {v : RecordValue} (hname : Mi.IsName name.toList)
    (hlabel : label.toList = "^done,".toList ++ (name.toList ++ ['=']))
    (h : Mi.ValueText v text.toList) :
    Reads (String.ofList digits ++ label ++ text) (resultRecord digits "done" [(name, v)]) := by
  have hwrites : Writes (name, v) (name ++ "=" ++ text) :=
    writes_named hname String.toList_append h
  refine field_reads hdigits (by decide) hwrites ?_
  rw [String.toList_append, String.toList_append, String.toList_ofList, hlabel,
    String.toList_append, String.toList_append, List.append_assoc, List.append_assoc]
  rfl

theorem error_reads {message : String} {text : List Char} (h : Mi.Quoted text message.toList) :
    Reads (errorLine (String.ofList digits) message)
      (errorRecord digits (String.ofList text)) := by
  refine field_reads hdigits (by decide) (writes_field (by decide) h) ?_
  rw [errorLine, String.toList_append, String.toList_append, String.toList_ofList,
    List.append_assoc]
  rfl

theorem plainError_reads {message : String} (h : isPlain message.toList = true) :
    Reads (errorLine (String.ofList digits) message) (errorRecord digits message) := by
  have hreads := error_reads hdigits (quoted_of_isPlain h)
  rwa [String.ofList_toList] at hreads

end

theorem exec_reads {className line : String} {fs : List (String × RecordValue)}
    {texts : List String} (hclass : className ∈ ["running", "stopped"])
    (h : List.Forall₂ Writes fs texts)
    (hline : line.toList =
      '*' :: (className.toList ++ texts.flatMap fun text => ',' :: text.toList)) :
    Reads line (execRecord className fs) := by
  have hplain : ∀ className ∈ ["running", "stopped"],
      className ≠ "" ∧ ',' ∉ className.toList ∧ className.toList.getLast? ≠ some '\r' := by
    decide
  obtain ⟨hnonempty, hcomma, hreturn⟩ := hplain _ hclass
  have hdigits : ∀ c ∈ ([] : List Char), Text.isDigit c = true := fun _ h => nomatch h
  have hkind : RecordKind.exec ∈ Mi.classKinds := by decide
  exact Mi.read_line hdigits hkind rfl hnonempty hcomma hreturn (fun h => nomatch h)
    (results_text h) hline

theorem prompt_reads : Reads prompt (.prompt "") := by
  rfl

theorem pong_reads : Reads "pong" (.raw "pong") := by
  rfl

end Mock
end CheckScript
