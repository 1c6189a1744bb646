/-
Records written on a line, and read back from it.

A record is written by the grammar, with no more behind a backslash than has to be there, and
the items of a list as values.  What is written for a record is one of its texts, so it is
read as that record (`read_write`).
-/
import CheckScript.Proofs.Record.Line

namespace CheckScript
namespace Mi

/-! ## Writing -/

def escaped : List Char → List Char
  | [] => []
  | c :: cs => if c = '"' ∨ c = '\\' then '\\' :: c :: escaped cs else c :: escaped cs

def writtenString (s : String) : List Char := '"' :: (escaped s.toList ++ ['"'])

mutual

def written : RecordValue → List Char
  | .const s => writtenString s
  | .tuple fs => '{' :: ([','].intercalate (writtenFields fs) ++ ['}'])
  | .list vs => '[' :: ([','].intercalate (writtenItems vs) ++ [']'])

def writtenFields : List (String × RecordValue) → List (List Char)
  | [] => []
  | (name, v) :: fs => (name.toList ++ '=' :: written v) :: writtenFields fs

def writtenItems : List RecordValue → List (List Char)
  | [] => []
  | v :: vs => written v :: writtenItems vs

end

/-- The results behind a class. -/
def writtenResults : RecordValue → List Char
  | .tuple fs => (writtenFields fs).flatMap (',' :: ·)
  | .const _ | .list _ => []

def writtenToken (token : Option Nat) : List Char := token.elim [] (Nat.toDigits 10)

/-- The line of a record.  A record without a sign is its line as it stands. -/
def write (r : Record) : String :=
  match sign? r.kind, r.text with
  | some sign, none =>
    String.ofList (writtenToken r.token ++ sign :: (r.className.toList ++ writtenResults r.results))
  | some sign, some text => String.ofList (sign :: writtenString text)
  | none, _ => r.line

/- All names inside a value are names of the grammar. -/
mutual

def Named : RecordValue → Prop
  | .const _ => True
  | .tuple fs => NamedFields fs
  | .list vs => NamedItems vs

def NamedFields : List (String × RecordValue) → Prop
  | [] => True
  | (name, v) :: fs => IsName name.toList ∧ Named v ∧ NamedFields fs

def NamedItems : List RecordValue → Prop
  | [] => True
  | v :: vs => Named v ∧ NamedItems vs

end

/-- The records that a line can say. -/
inductive Writable : Record → Prop where
  | result {line className : String} {token : Option Nat} {fs : List (String × RecordValue)}
      (htoken : ∀ t, token = some t → t < Nat.pow 2 64) (hknown : className ∈ resultClasses)
      (hnames : NamedFields fs) :
      Writable { line, token, kind := .result, className, results := .tuple fs, text := none }
  | async {line className : String} {token : Option Nat} {kind : RecordKind}
      {fs : List (String × RecordValue)} (hkind : kind ∈ [.exec, .status, .notify])
      (htoken : ∀ t, token = some t → t < Nat.pow 2 64) (hnonempty : className ≠ "")
      (hcomma : ',' ∉ className.toList) (hreturn : className.toList.getLast? ≠ some '\r')
      (hnames : NamedFields fs) :
      Writable { line, token, kind, className, results := .tuple fs, text := none }
  | stream {line text : String} {kind : RecordKind} (hkind : kind ∈ [.console, .target, .log]) :
      Writable (.stream line kind text)

/-! ## What is written is a text of the grammar -/

theorem escaped_quoted (text : List Char) : Quoted text (escaped text) := by
  induction text with
  | nil => exact .nil
  | cons c cs ih =>
    unfold escaped
    split
    · rename_i hc
      refine .escape (.itself ?_) ih
      rcases hc with rfl | rfl <;> decide
    · rename_i hc
      obtain ⟨hquote, hslash⟩ := not_or.mp hc
      exact .plain hquote hslash ih

theorem writtenString_text (s : String) : ValueText (.const s) (writtenString s) := by
  have htext := ValueText.const (escaped_quoted s.toList)
  rwa [String.ofList_toList] at htext

theorem writtenField_text {name : String} {v : RecordValue} (hname : IsName name.toList)
    (h : ValueText v (written v)) : FieldText (name, v) (name.toList ++ '=' :: written v) := by
  have htext := FieldText.named hname h
  rwa [String.ofList_toList] at htext

mutual

theorem written_text (v : RecordValue) (h : Named v) : ValueText v (written v) := by
  match v with
  | .const s => exact writtenString_text s
  | .tuple [] => exact .noFields
  | .tuple (f :: fs) => exact .fields (writtenFields_text (f :: fs) (List.cons_ne_nil f fs) h)
  | .list [] => exact .noItems
  | .list (v :: vs) => exact .items (writtenItems_text (v :: vs) (List.cons_ne_nil v vs) h)

theorem writtenFields_text (fs : List (String × RecordValue)) (hne : fs ≠ [])
    (h : NamedFields fs) : FieldsText fs ([','].intercalate (writtenFields fs)) := by
  match fs with
  | [] => exact absurd rfl hne
  | [(name, v)] =>
    obtain ⟨hname, hv, -⟩ := h
    rw [writtenFields, writtenFields, List.intercalate_singleton]
    exact .one (writtenField_text hname (written_text v hv))
  | (name, v) :: f :: fs =>
    obtain ⟨hname, hv, hfs⟩ := h
    have hrest := writtenFields_text (f :: fs) (List.cons_ne_nil f fs) hfs
    rw [writtenFields, List.intercalate_cons_of_ne_nil (by simp [writtenFields]),
      List.append_assoc]
    exact .more (writtenField_text hname (written_text v hv)) hrest

theorem writtenItems_text (vs : List RecordValue) (hne : vs ≠ []) (h : NamedItems vs) :
    ItemsText vs ([','].intercalate (writtenItems vs)) := by
  match vs with
  | [] => exact absurd rfl hne
  | [v] =>
    rw [writtenItems, writtenItems, List.intercalate_singleton]
    exact .one (written_text v h.1)
  | v :: w :: ws =>
    have hrest := writtenItems_text (w :: ws) (List.cons_ne_nil w ws) h.2
    rw [writtenItems, List.intercalate_cons_of_ne_nil (by simp [writtenItems]),
      List.append_assoc]
    exact .more (written_text v h.1) hrest

end

theorem writtenResults_text {fs : List (String × RecordValue)} (h : NamedFields fs) :
    ResultsText fs (writtenResults (.tuple fs)) := by
  induction fs with
  | nil => exact .nil
  | cons f fs ih =>
    obtain ⟨name, v⟩ := f
    obtain ⟨hname, hv, hfs⟩ := h
    exact .cons (writtenField_text hname (written_text v hv)) (ih hfs)

/-! ## How a line ends -/

theorem getLast?_cons_ne {c d : Char} {cs : List Char} (hcd : c ≠ d)
    (h : cs.getLast? ≠ some d) : (c :: cs).getLast? ≠ some d := by
  rw [List.getLast?_cons]
  cases hlast : cs.getLast? with
  | none => simpa using hcd
  | some e => simpa [hlast] using h

theorem getLast?_append_cons (cs : List Char) (d : Char) (ds : List Char) :
    (cs ++ d :: ds).getLast? = (d :: ds).getLast? := by
  rw [List.getLast?_append, List.getLast?_cons, Option.some_or]

theorem getLast?_append_ne {d : Char} {cs ds : List Char} (hc : cs.getLast? ≠ some d)
    (hd : ds.getLast? ≠ some d) : (cs ++ ds).getLast? ≠ some d := by
  rw [List.getLast?_append]
  cases hlast : ds.getLast? with
  | none => simpa using hc
  | some e => simpa [hlast] using hd

/-- A value ends with a quote or a bracket. -/
theorem ValueText.getLast?_ne {v : RecordValue} {text : List Char} (h : ValueText v text) :
    text.getLast? ≠ some '\r' := by
  cases h with
  | const | fields | items | namedItems =>
    rw [← List.cons_append, List.getLast?_concat]
    decide
  | noFields | noItems => decide

theorem FieldText.getLast?_ne {f : String × RecordValue} {text : List Char}
    (h : FieldText f text) : text.getLast? ≠ some '\r' := by
  cases h with
  | named _ h =>
    rw [getLast?_append_cons]
    exact getLast?_cons_ne (by decide) h.getLast?_ne

theorem ResultsText.getLast?_ne {fs : List (String × RecordValue)} {text : List Char}
    (h : ResultsText fs text) : text.getLast? ≠ some '\r' := by
  induction h with
  | nil => exact fun h => nomatch h
  | cons h _ ih => exact getLast?_cons_ne (by decide) (getLast?_append_ne h.getLast?_ne ih)

theorem dropReturn_of_getLast? {cs : List Char} (h : cs.getLast? ≠ some '\r') :
    Text.dropReturn cs = cs := by
  rw [Text.dropReturn, if_neg h]

/-! ## Reading what was written -/

theorem writtenToken_digits (token : Option Nat) :
    ∀ c ∈ writtenToken token, Text.isDigit c = true := by
  cases token with
  | none => exact fun _ h => nomatch h
  | some t => exact fun _ => Integer.isDigit_of_mem_toDigits

theorem tokenOf_writtenToken {token : Option Nat}
    (h : ∀ t, token = some t → t < Nat.pow 2 64) : tokenOf (writtenToken token) = token := by
  cases token with
  | none => rfl
  | some t => exact Integer.word?_toDigits (h t rfl)

/-- A line by the grammar is read, if its class does not end with a carriage return. -/
theorem read_line {digits text : List Char} {className : String} {sign : Char}
    {kind : RecordKind} {fs : List (String × RecordValue)}
    (hdigits : ∀ c ∈ digits, Text.isDigit c = true) (hkind : kind ∈ classKinds)
    (hsign : sign? kind = some sign) (hnonempty : className ≠ "")
    (hcomma : ',' ∉ className.toList) (hreturn : className.toList.getLast? ≠ some '\r')
    (hknown : kind = .result → className ∈ resultClasses) (hresults : ResultsText fs text)
    {line : String} (hline : line.toList = digits ++ sign :: (className.toList ++ text)) :
    Mi.read line =
      .ok { line, token := tokenOf digits, kind, className, results := .tuple fs, text := none } := by
  have htext := LineText.classed hdigits hkind hsign
    (fun hnil => hnonempty (String.toList_eq_nil_iff.mp hnil)) hcomma
    (by rwa [String.ofList_toList]) hresults
  rw [← hline, String.ofList_toList, String.ofList_toList] at htext
  have hlast : line.toList.getLast? ≠ some '\r' := by
    have hsignReturn : sign ≠ '\r' := by
      cases kind <;> cases hsign <;> decide
    rw [hline, getLast?_append_cons]
    exact getLast?_cons_ne hsignReturn (getLast?_append_ne hreturn hresults.getLast?_ne)
  rw [read_eq_ok, dropReturn_of_getLast? hlast]
  exact htext.readLine

theorem read_classed {line className : String} {token : Option Nat} {kind : RecordKind}
    {fs : List (String × RecordValue)} (htoken : ∀ t, token = some t → t < Nat.pow 2 64)
    (hkind : kind ∈ classKinds) (hnonempty : className ≠ "") (hcomma : ',' ∉ className.toList)
    (hreturn : className.toList.getLast? ≠ some '\r')
    (hknown : kind = .result → className ∈ resultClasses) (hnames : NamedFields fs) :
    let r : Record := { line, token, kind, className, results := .tuple fs, text := none }
    Mi.read (write r) = .ok { r with line := write r } := by
  intro r
  obtain ⟨sign, hsign⟩ : ∃ sign, sign? kind = some sign := by
    cases kind <;> first | exact ⟨_, rfl⟩ | exact absurd hkind (by decide)
  have hwrite : (write r).toList =
      writtenToken token ++ sign :: (className.toList ++ writtenResults (.tuple fs)) := by
    simp only [write, r, hsign, String.toList_ofList]
  have hread := read_line (writtenToken_digits token) hkind hsign hnonempty hcomma hreturn hknown
    (writtenResults_text hnames) hwrite
  rwa [tokenOf_writtenToken htoken] at hread

/-- A line of a stream is read as the text between its quotes. -/
theorem read_stream {inner text : List Char} {sign : Char} {kind : RecordKind}
    (hkind : kind ∈ [.console, .target, .log]) (hsign : sign? kind = some sign)
    (hinner : Quoted text inner) {line : String}
    (hline : line.toList = sign :: '"' :: (inner ++ ['"'])) :
    Mi.read line = .ok (.stream line kind (String.ofList text)) := by
  have hdigits : ∀ c ∈ ([] : List Char), Text.isDigit c = true := fun _ h => nomatch h
  have hread : readLine ([] ++ sign :: '"' :: (inner ++ ['"'])) = _ :=
    readLine_streamed hdigits hkind hsign
  rw [List.nil_append, ← hline, if_pos (show (tokenOf []).isNone = true from rfl)] at hread
  have hlast : line.toList.getLast? ≠ some '\r' := by
    have hsignReturn : sign ≠ '\r' := by
      cases kind <;> cases hsign <;> decide
    rw [hline]
    exact getLast?_cons_ne hsignReturn (ValueText.const hinner).getLast?_ne
  rw [read_eq_ok, dropReturn_of_getLast? hlast, hread]
  unfold streamed
  simp only [hinner.stringRest, String.ofList_toList]

theorem read_streamed {line text : String} {kind : RecordKind}
    (hkind : kind ∈ [.console, .target, .log]) :
    let r : Record := .stream line kind text
    Mi.read (write r) = .ok { r with line := write r } := by
  intro r
  obtain ⟨sign, hsign⟩ : ∃ sign, sign? kind = some sign := by
    cases kind <;> first | exact ⟨_, rfl⟩ | exact absurd hkind (by decide)
  have hwrite : (write r).toList = sign :: '"' :: (escaped text.toList ++ ['"']) := by
    simp only [write, r, Record.stream, hsign, String.toList_ofList]
    rfl
  have hread := read_stream hkind hsign (escaped_quoted text.toList) hwrite
  rwa [String.ofList_toList] at hread

theorem resultClasses_plain : ∀ className ∈ resultClasses,
    className ≠ "" ∧ ',' ∉ className.toList ∧ className.toList.getLast? ≠ some '\r' := by
  decide

/-- Every record that a line can say is read from the line that is written for it. -/
theorem read_write {r : Record} (h : Writable r) :
    Mi.read (write r) = .ok { r with line := write r } := by
  cases h with
  | result htoken hknown hnames =>
    obtain ⟨hnonempty, hcomma, hreturn⟩ := resultClasses_plain _ hknown
    exact read_classed htoken (by decide) hnonempty hcomma hreturn (fun _ => hknown) hnames
  | async hkind htoken hnonempty hcomma hreturn hnames =>
    simp only [List.mem_cons, List.not_mem_nil, or_false] at hkind
    refine read_classed htoken ?_ hnonempty hcomma hreturn ?_ hnames
    · rcases hkind with rfl | rfl | rfl <;> decide
    · rcases hkind with rfl | rfl | rfl <;> exact fun h => nomatch h
  | stream hkind => exact read_streamed hkind

/-- A stopped program, with a token, repeated names, a list of results and a text that has to be
escaped. -/
def stopped : Record :=
  { line := "", token := some 18446744073709551615, kind := .exec, className := "stopped"
    results := .tuple
      [("reason", .const "a \"b\" \\"),
        ("frame", .tuple [("args", .list []), ("level", .const "0"), ("level", .const "1")]),
        ("stack", .list [.tuple [("frame", .const "\n")], .list [.const ""], .tuple []])]
    text := none }

theorem read_write_stopped : Writable stopped ∧
    Mi.read (write stopped) = .ok { stopped with line := write stopped } := by
  have h : Writable stopped := by
    refine .async (by decide) ?_ (by decide) (by decide) (by decide) ?_
    · rintro t ⟨⟩
      decide
    · have hreason : IsName "reason".toList := by decide
      have hframe : IsName "frame".toList := by decide
      have hargs : IsName "args".toList := by decide
      have hlevel : IsName "level".toList := by decide
      have hstack : IsName "stack".toList := by decide
      simp only [NamedFields, Named, NamedItems, hreason, hframe, hargs, hlevel, hstack, and_self]
  exact ⟨h, read_write h⟩

end Mi
end CheckScript
