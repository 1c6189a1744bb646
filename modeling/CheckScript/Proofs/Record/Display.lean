/-
Records as text.

A text is telling if it can have been written for one thing only, whatever follows it.  Escapes are
telling since each can be read back (`unescape_escape`), and so are strings, which end at the first
quote that is not escaped, and rows, where a comma or the closing sign follows each item.  Hence the
text of a value tells the value, down to the order of fields and to names that are repeated
(`text_identifies`).
-/
import CheckScript.Proofs.Text.Lines
import CheckScript.Script.Value

namespace CheckScript

/-- What is written for `x` is written for nothing else, whatever follows. -/
def Telling {α : Type} (write : α → String) (x : α) : Prop :=
  ∀ y rest rest', (write x).toList ++ rest = (write y).toList ++ rest' → x = y ∧ rest = rest'

/-! ## Strings -/

namespace Json

/-- The value of a hexadecimal digit in small letters. -/
def hexValue (c : Char) : Nat := if c.toNat < 58 then c.toNat - 48 else c.toNat - 87

/-- The character that a letter behind a backslash stands for. -/
def named : Char → Char
  | 'n' => '\n'
  | 'r' => '\r'
  | 't' => '\t'
  | 'b' => '\x08'
  | 'f' => '\x0c'
  | c => c

/-- The first character that is meant by the inside of a string, and what follows it. -/
def unescape : List Char → Option (Char × List Char)
  | '\\' :: 'u' :: '0' :: '0' :: high :: low :: rest =>
    some (Char.ofNat (16 * hexValue high + hexValue low), rest)
  | '\\' :: letter :: rest => some (named letter, rest)
  | c :: rest => some (c, rest)
  | [] => none

theorem hexValue_hexDigit : ∀ n < 16, hexValue (Text.Quoted.hexDigit n) = n := by
  decide

theorem hex_of_lt {n : Nat} (h : n < 16) : Text.Quoted.hex n = [Text.Quoted.hexDigit n] := by
  rw [Text.Quoted.hex, if_pos h]

theorem hex_of_control {n : Nat} (hlow : ¬n < 16) (hhigh : n < 32) :
    Text.Quoted.hex n = [Text.Quoted.hexDigit (n / 16), Text.Quoted.hexDigit (n % 16)] := by
  have hfirst : n / 16 < 16 := by omega
  rw [Text.Quoted.hex, if_neg hlow, hex_of_lt hfirst]
  rfl

theorem unescape_control {c : Char} (high low : Nat) (hhigh : high < 16) (hlow : low < 16)
    (hc : c.toNat = 16 * high + low) (rest : List Char) :
    unescape ('\\' :: 'u' :: '0' :: '0' :: Text.Quoted.hexDigit high ::
      Text.Quoted.hexDigit low :: rest) = some (c, rest) := by
  rw [unescape, hexValue_hexDigit high hhigh, hexValue_hexDigit low hlow, ← hc, Char.ofNat_toNat]

theorem unescape_escape (c : Char) (rest : List Char) :
    unescape (escape c ++ rest) = some (c, rest) := by
  unfold escape
  split
  -- Seven characters have a letter of their own behind the backslash.
  iterate 7 rfl
  rename_i hquote hslash _ _ _ _ _
  split
  · rename_i hlow
    have hzero : Text.Quoted.hexDigit 0 = '0' := by decide
    have hread := unescape_control 0 c.toNat (by decide) hlow (Nat.zero_add _).symm rest
    rw [hzero] at hread
    rw [hex_of_lt hlow]
    exact hread
  · rename_i hlow
    split
    · rename_i hhigh
      rw [hex_of_control hlow hhigh]
      exact unescape_control (c.toNat / 16) (c.toNat % 16) (by omega) (by omega) (by omega) rest
    · rw [List.singleton_append, unescape]
      · exact fun _ _ _ h => absurd h hslash
      · exact fun _ _ h => absurd h hslash

theorem escape_ne_quote (c : Char) (rest rest' : List Char) :
    escape c ++ rest ≠ '"' :: rest' := by
  intro h
  have hread := unescape_escape c rest
  rw [h] at hread
  obtain ⟨rfl, rfl⟩ := Prod.mk.inj (Option.some.inj hread)
  cases h

/-- A string ends at the first quote that stands for itself. -/
theorem inside_telling (cs ds rest rest' : List Char)
    (h : cs.flatMap escape ++ '"' :: rest = ds.flatMap escape ++ '"' :: rest') :
    cs = ds ∧ rest = rest' := by
  induction cs generalizing ds with
  | nil =>
    cases ds with
    | nil => exact ⟨rfl, (List.cons.inj h).2⟩
    | cons d ds =>
      rw [List.flatMap_cons, List.append_assoc] at h
      exact absurd h.symm (escape_ne_quote d _ _)
  | cons c cs ih =>
    cases ds with
    | nil =>
      rw [List.flatMap_cons, List.append_assoc] at h
      exact absurd h (escape_ne_quote c _ _)
    | cons d ds =>
      rw [List.flatMap_cons, List.flatMap_cons, List.append_assoc, List.append_assoc] at h
      have hread := congrArg unescape h
      rw [unescape_escape, unescape_escape] at hread
      obtain ⟨rfl, hbehind⟩ := Prod.mk.inj (Option.some.inj hread)
      obtain ⟨rfl, hrest⟩ := ih ds hbehind
      exact ⟨rfl, hrest⟩

theorem quote_toList (s : String) :
    (quote s).toList = '"' :: (s.toList.flatMap escape ++ ['"']) := by
  rw [quote, String.toList_ofList, List.singleton_append, List.cons_append]

theorem quote_telling (s : String) : Telling quote s := by
  intro t rest rest' h
  rw [quote_toList, quote_toList, List.cons_append, List.cons_append, List.append_assoc,
    List.append_assoc] at h
  obtain ⟨hchars, hrest⟩ := inside_telling _ _ _ _ (List.cons.inj h).2
  exact ⟨String.toList_inj.mp hchars, hrest⟩

end Json

/-! ## Rows -/

section Rows

variable {α : Type} {write : α → String} {closing : Char} {xs : List α}

/-- Items with a comma before each of them, up to the closing sign. -/
theorem items_telling (hclosing : closing ≠ ',') (hxs : ∀ x ∈ xs, Telling write x)
    (ys : List α) (rest rest' : List Char)
    (h : (xs.flatMap fun x => ',' :: (write x).toList) ++ closing :: rest =
      (ys.flatMap fun y => ',' :: (write y).toList) ++ closing :: rest') :
    xs = ys ∧ rest = rest' := by
  induction xs generalizing ys with
  | nil =>
    cases ys with
    | nil => exact ⟨rfl, (List.cons.inj h).2⟩
    | cons y ys => exact absurd (List.cons.inj h).1 hclosing
  | cons x xs ih =>
    cases ys with
    | nil => exact absurd (List.cons.inj h).1.symm hclosing
    | cons y ys =>
      rw [List.flatMap_cons, List.flatMap_cons, List.append_assoc, List.append_assoc] at h
      obtain ⟨hx, hmore⟩ := List.forall_mem_cons.mp hxs
      obtain ⟨rfl, hbehind⟩ := hx y _ _ (List.cons.inj h).2
      obtain ⟨rfl, hrest⟩ := ih hmore ys hbehind
      exact ⟨rfl, hrest⟩

/-- A row of items between two signs. -/
def row (opening closing : Char) (write : α → String) (xs : List α) : String :=
  String.singleton opening ++ Text.joinWith "," (xs.map write) ++ String.singleton closing

theorem row_nil (opening closing : Char) (write : α → String) :
    (row opening closing write []).toList = [opening, closing] := by
  simp [row, Text.joinWith]

theorem row_cons (opening closing : Char) (write : α → String) (x : α) (xs : List α) :
    (row opening closing write (x :: xs)).toList =
      opening :: ((write x).toList ++
        ((xs.flatMap fun x => ',' :: (write x).toList) ++ [closing])) := by
  simp [row, Text.joinWith_toList, List.flatMap_map]

/-- A row of no items is told from the others by its second sign. -/
theorem row_telling {opening : Char} (hclosing : closing ≠ ',')
    (hopens : ∀ x, ∃ c cs, (write x).toList = c :: cs ∧ c ≠ closing)
    (hxs : ∀ x ∈ xs, Telling write x) : Telling (row opening closing write) xs := by
  intro ys rest rest' h
  cases xs with
  | nil =>
    cases ys with
    | nil =>
      rw [row_nil] at h
      exact ⟨rfl, (List.cons.inj (List.cons.inj h).2).2⟩
    | cons y ys =>
      obtain ⟨c, cs, hy, hc⟩ := hopens y
      rw [row_nil, row_cons, hy] at h
      exact absurd (List.cons.inj (List.cons.inj h).2).1.symm hc
  | cons x xs =>
    cases ys with
    | nil =>
      obtain ⟨c, cs, hx, hc⟩ := hopens x
      rw [row_nil, row_cons, hx] at h
      exact absurd (List.cons.inj (List.cons.inj h).2).1 hc
    | cons y ys =>
      obtain ⟨hx, hmore⟩ := List.forall_mem_cons.mp hxs
      rw [row_cons, row_cons, List.cons_append, List.cons_append] at h
      have hbehind := (List.cons.inj h).2
      simp only [List.append_assoc, List.singleton_append] at hbehind
      obtain ⟨rfl, hitems⟩ := hx y _ _ hbehind
      obtain ⟨rfl, hrest⟩ := items_telling hclosing hmore ys rest rest' hitems
      exact ⟨rfl, hrest⟩

end Rows

/-! ## Values -/

namespace RecordValue

/-- A field of a tuple. -/
def member (field : String × RecordValue) : String := Json.quote field.1 ++ ":" ++ field.2.text

theorem compactMembers_jsonFields (fields : List (String × RecordValue)) :
    Json.compactMembers (jsonFields fields) = fields.map member := by
  induction fields with
  | nil => rfl
  | cons f fs ih => rw [jsonFields, Json.compactMembers, ih, List.map_cons, member, text]

theorem compactItems_jsonItems (items : List RecordValue) :
    Json.compactItems (jsonItems items) = items.map text := by
  induction items with
  | nil => rfl
  | cons v vs ih => rw [jsonItems, Json.compactItems, ih, List.map_cons, text]

theorem text_const (s : String) : (const s).text = Json.quote s := by
  rw [text, json, Json.compact]

theorem text_tuple (fields : List (String × RecordValue)) :
    (tuple fields).text = row '\x7b' '\x7d' member fields := by
  rw [text, json, Json.compact, compactMembers_jsonFields]
  rfl

theorem text_list (items : List RecordValue) :
    (list items).text = row '[' ']' text items := by
  rw [text, json, Json.compact, compactItems_jsonItems]
  rfl

/-- The first sign tells a constant, a tuple and a list apart. -/
def opening : RecordValue → Char
  | const _ => '"'
  | tuple _ => '\x7b'
  | list _ => '['

theorem text_opening (v : RecordValue) : ∃ cs, v.text.toList = v.opening :: cs := by
  cases v with
  | const s => exact ⟨_, by rw [text_const, Json.quote_toList]; rfl⟩
  | tuple fields =>
    rw [text_tuple]
    cases fields with
    | nil => exact ⟨_, row_nil ..⟩
    | cons f fs => exact ⟨_, row_cons ..⟩
  | list items =>
    rw [text_list]
    cases items with
    | nil => exact ⟨_, row_nil ..⟩
    | cons v vs => exact ⟨_, row_cons ..⟩

theorem opening_ne (v : RecordValue) : v.opening ≠ ']' := by
  cases v <;> simp [opening]

theorem text_opens (v : RecordValue) : ∃ c cs, v.text.toList = c :: cs ∧ c ≠ ']' := by
  obtain ⟨cs, h⟩ := text_opening v
  exact ⟨_, cs, h, opening_ne v⟩

theorem member_opens (f : String × RecordValue) :
    ∃ c cs, (member f).toList = c :: cs ∧ c ≠ '\x7d' := by
  rw [member, String.toList_append, String.toList_append, Json.quote_toList]
  exact ⟨_, _, rfl, by decide⟩

theorem member_telling {f : String × RecordValue} (h : Telling text f.2) : Telling member f := by
  intro g rest rest' heq
  rw [member, member] at heq
  simp only [String.toList_append, List.append_assoc] at heq
  obtain ⟨hname, hbehind⟩ := Json.quote_telling f.1 g.1 _ _ heq
  obtain ⟨hvalue, hrest⟩ := h g.2 rest rest' (List.cons.inj hbehind).2
  exact ⟨Prod.ext hname hvalue, hrest⟩

theorem opening_eq {v w : RecordValue} {rest rest' : List Char}
    (h : v.text.toList ++ rest = w.text.toList ++ rest') : v.opening = w.opening := by
  obtain ⟨cs, hv⟩ := text_opening v
  obtain ⟨ds, hw⟩ := text_opening w
  rw [hv, hw] at h
  exact (List.cons.inj h).1

theorem text_telling (v : RecordValue) : Telling text v := by
  match v with
  | const s =>
    intro w rest rest' h
    have hopening := opening_eq h
    cases w with
    | const t =>
      rw [text_const, text_const] at h
      obtain ⟨rfl, hrest⟩ := Json.quote_telling s t rest rest' h
      exact ⟨rfl, hrest⟩
    | tuple _ => simp [opening] at hopening
    | list _ => simp [opening] at hopening
  | tuple fields =>
    have hfields : ∀ f ∈ fields, Telling member f := fun f hf =>
      have := List.sizeOf_lt_of_mem hf
      member_telling (text_telling f.2)
    intro w rest rest' h
    have hopening := opening_eq h
    cases w with
    | const _ => simp [opening] at hopening
    | tuple others =>
      rw [text_tuple, text_tuple] at h
      obtain ⟨rfl, hrest⟩ := row_telling (by decide) member_opens hfields others rest rest' h
      exact ⟨rfl, hrest⟩
    | list _ => simp [opening] at hopening
  | list items =>
    have hitems : ∀ i ∈ items, Telling text i := fun i hi =>
      have := List.sizeOf_lt_of_mem hi
      text_telling i
    intro w rest rest' h
    have hopening := opening_eq h
    cases w with
    | const _ => simp [opening] at hopening
    | tuple _ => simp [opening] at hopening
    | list others =>
      rw [text_list, text_list] at h
      obtain ⟨rfl, hrest⟩ := row_telling (by decide) text_opens hitems others rest rest' h
      exact ⟨rfl, hrest⟩
termination_by sizeOf v
decreasing_by
  · cases f with
    | mk name value =>
      simp only [tuple.sizeOf_spec, Prod.mk.sizeOf_spec] at *
      omega
  · simp only [list.sizeOf_spec]
    omega

/-- The text of a record value identifies it: order and repeated names of fields, empty rows, and
every character of names and constants.  So does the text that a script shows of a tuple or list. -/
theorem text_identifies (v w : RecordValue) :
    (v.text = w.text ↔ v = w) ∧
    (∀ rest rest', v.text ++ rest = w.text ++ rest' ↔ v = w ∧ rest = rest') ∧
    ((Script.Value.node v).text = (Script.Value.node w).text ↔ v = w) := by
  have hprefix (rest rest' : String) :
      v.text ++ rest = w.text ++ rest' ↔ v = w ∧ rest = rest' := by
    constructor
    · intro h
      have hchars := congrArg String.toList h
      rw [String.toList_append, String.toList_append] at hchars
      obtain ⟨hvalue, hrest⟩ := text_telling v w _ _ hchars
      exact ⟨hvalue, String.toList_inj.mp hrest⟩
    · rintro ⟨rfl, rfl⟩
      rfl
  have halone : v.text = w.text ↔ v = w := by
    have h := hprefix "" ""
    rwa [String.append_empty, String.append_empty, and_iff_left rfl] at h
  exact ⟨halone, hprefix, by rw [Script.Value.text, Script.Value.text, halone]⟩

end RecordValue
end CheckScript
