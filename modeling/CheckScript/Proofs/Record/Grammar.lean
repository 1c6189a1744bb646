/-
The grammar of the machine interface, as the texts that each part of a record may have.

It is stated beside the readers and without them, and the two are tied in both directions:
what a reader takes for a value is a text of that value and nothing behind it
(`value_text`), and every text of a value is read as that value, whatever follows it
(`ValueText.value`).
-/
import CheckScript.Record.Mi

namespace CheckScript
namespace Mi

/-- The character behind a backslash, and the one that both together stand for. -/
inductive Escape : Char → Char → Prop where
  | newline : Escape 'n' '\n'
  | tab : Escape 't' '\t'
  | carriageReturn : Escape 'r' '\r'
  | null : Escape '0' '\x00'
  | itself {c : Char} (h : c ∉ ['n', 't', 'r', '0']) : Escape c c

/-- What may stand between quotes for a text.  A quote or a backslash of the text can only
be there behind a backslash. -/
inductive Quoted : List Char → List Char → Prop where
  | nil : Quoted [] []
  | plain {c : Char} {text inner : List Char} (hquote : c ≠ '"') (hslash : c ≠ '\\')
      (h : Quoted text inner) : Quoted (c :: text) (c :: inner)
  | escape {c d : Char} {text inner : List Char} (hc : Escape c d) (h : Quoted text inner) :
      Quoted (d :: text) ('\\' :: c :: inner)

def IsName (name : List Char) : Prop :=
  name ≠ [] ∧ ∀ c ∈ name, c ∉ ['=', ',', '{', '}', '[', ']', '"']

instance decidableIsName (name : List Char) : Decidable (IsName name) :=
  have _ : Decidable (∀ c ∈ name, c ∉ ['=', ',', '{', '}', '[', ']', '"']) :=
    List.decidableBAll _ name
  inferInstanceAs (Decidable (_ ∧ _))

mutual

inductive ValueText : RecordValue → List Char → Prop where
  | const {text inner : List Char} (h : Quoted text inner) :
      ValueText (.const (String.ofList text)) ('"' :: (inner ++ ['"']))
  | noFields : ValueText (.tuple []) ['{', '}']
  | fields {fs : List (String × RecordValue)} {text : List Char} (h : FieldsText fs text) :
      ValueText (.tuple fs) ('{' :: (text ++ ['}']))
  | noItems : ValueText (.list []) ['[', ']']
  | items {vs : List RecordValue} {text : List Char} (h : ItemsText vs text) :
      ValueText (.list vs) ('[' :: (text ++ [']']))
  | namedItems {fs : List (String × RecordValue)} {text : List Char} (h : FieldsText fs text) :
      ValueText (.list (fs.map fun f => .tuple [f])) ('[' :: (text ++ [']']))

inductive FieldText : String × RecordValue → List Char → Prop where
  | named {name text : List Char} {v : RecordValue} (hname : IsName name)
      (h : ValueText v text) : FieldText (String.ofList name, v) (name ++ '=' :: text)

/-- One field or more, with commas between them. -/
inductive FieldsText : List (String × RecordValue) → List Char → Prop where
  | one {f : String × RecordValue} {text : List Char} (h : FieldText f text) :
      FieldsText [f] text
  | more {f : String × RecordValue} {fs : List (String × RecordValue)} {text texts : List Char}
      (h : FieldText f text) (hs : FieldsText fs texts) :
      FieldsText (f :: fs) (text ++ ',' :: texts)

/-- One value or more, with commas between them. -/
inductive ItemsText : List RecordValue → List Char → Prop where
  | one {v : RecordValue} {text : List Char} (h : ValueText v text) : ItemsText [v] text
  | more {v : RecordValue} {vs : List RecordValue} {text texts : List Char}
      (h : ValueText v text) (hs : ItemsText vs texts) :
      ItemsText (v :: vs) (text ++ ',' :: texts)

end

/-- Any number of fields, each behind a comma. -/
inductive ResultsText : List (String × RecordValue) → List Char → Prop where
  | nil : ResultsText [] []
  | cons {f : String × RecordValue} {fs : List (String × RecordValue)} {text texts : List Char}
      (h : FieldText f text) (hs : ResultsText fs texts) :
      ResultsText (f :: fs) (',' :: (text ++ texts))

/-! ## Strings -/

theorem escape_unescape (c : Char) : Escape c (unescape c) := by
  unfold unescape
  split
  · exact .newline
  · exact .tab
  · exact .carriageReturn
  · exact .null
  · rename_i hn ht hr hzero
    refine .itself fun hmem => ?_
    simp only [List.mem_cons, List.not_mem_nil, or_false] at hmem
    rcases hmem with h | h | h | h
    · exact hn h
    · exact ht h
    · exact hr h
    · exact hzero h

theorem Escape.unescape {c d : Char} (h : Escape c d) : unescape c = d := by
  cases h with
  | newline | tab | carriageReturn | null => rfl
  | itself h =>
    simp only [List.mem_cons, List.not_mem_nil, or_false, not_or] at h
    obtain ⟨hn, ht, hr, hzero⟩ := h
    exact Mi.unescape.eq_5 c hn ht hr hzero

theorem stringRest_quoted {cs text after : List Char} (h : stringRest cs = some (text, after)) :
    ∃ inner, Quoted text inner ∧ cs = inner ++ '"' :: after := by
  fun_induction stringRest cs generalizing text with
  | case1 | case3 => cases h
  | case2 rest =>
    obtain ⟨rfl, rfl⟩ := Prod.mk.inj (Option.some.inj h)
    exact ⟨[], .nil, rfl⟩
  | case4 c rest ih =>
    obtain ⟨⟨text, after⟩, hrest, hr⟩ := Option.map_eq_some_iff.mp h
    obtain ⟨rfl, rfl⟩ := Prod.mk.inj hr
    obtain ⟨inner, hinner, rfl⟩ := ih hrest
    exact ⟨'\\' :: c :: inner, .escape (escape_unescape c) hinner, rfl⟩
  | case5 c rest hquote hlast hpair ih =>
    obtain ⟨⟨text, after⟩, hrest, hr⟩ := Option.map_eq_some_iff.mp h
    obtain ⟨rfl, rfl⟩ := Prod.mk.inj hr
    obtain ⟨inner, hinner, rfl⟩ := ih hrest
    have hslash : c ≠ '\\' := by
      intro hc
      cases hinner with
      | nil | plain | escape => exact hpair _ _ hc rfl
    exact ⟨c :: inner, .plain hquote hslash hinner, rfl⟩

theorem Quoted.stringRest {text inner : List Char} (h : Quoted text inner) (after : List Char) :
    stringRest (inner ++ '"' :: after) = some (text, after) := by
  induction h with
  | nil => rfl
  | plain hquote hslash _ ih =>
    rename_i c text inner _
    rw [List.cons_append, Mi.stringRest.eq_5, ih, Option.map_some]
    · exact hquote
    · exact fun hc _ => hslash hc
    · exact fun _ _ hc _ => hslash hc
  | escape hc _ ih =>
    rw [List.cons_append, List.cons_append, Mi.stringRest, ih, Option.map_some, hc.unescape]

/-! ## Names -/

theorem isNameChar_iff (c : Char) :
    isNameChar c = true ↔ c ∉ ['=', ',', '{', '}', '[', ']', '"'] := by
  simp [isNameChar, isReserved, and_assoc]

theorem readName_named {cs after : List Char} {name : String}
    (h : readName cs = .ok (name, after)) :
    ∃ chars, IsName chars ∧ name = String.ofList chars ∧ cs = chars ++ '=' :: after := by
  have hcs : cs.takeWhile isNameChar ++ cs.dropWhile isNameChar = cs :=
    List.takeWhile_append_dropWhile
  unfold readName at h
  simp only at h
  split at h
  · split at h <;> cases h
  · rename_i c rest hdrop
    split at h
    · rename_i hc
      split at h
      · cases h
      · rename_i hempty
        obtain ⟨rfl, rfl⟩ := Prod.mk.inj (Except.ok.inj h)
        refine ⟨cs.takeWhile isNameChar, ⟨?_, ?_⟩, rfl, ?_⟩
        · exact fun hnil => hempty (by rw [hnil]; rfl)
        · exact fun c hmem => (isNameChar_iff c).mp (List.all_eq_true.mp List.all_takeWhile c hmem)
        · rw [← hc, ← hdrop, hcs]
    · cases h

theorem IsName.readName {name : List Char} (h : IsName name) (after : List Char) :
    readName (name ++ '=' :: after) = .ok (String.ofList name, after) := by
  have hname : ∀ c ∈ name, isNameChar c = true := fun c hc => (isNameChar_iff c).mpr (h.2 c hc)
  have htake : (name ++ '=' :: after).takeWhile isNameChar = name := by
    rw [List.takeWhile_append_of_pos hname, List.takeWhile_cons_of_neg (by decide), List.append_nil]
  have hdrop : (name ++ '=' :: after).dropWhile isNameChar = '=' :: after := by
    rw [List.dropWhile_append_of_pos hname, List.dropWhile_cons_of_neg (by decide)]
  unfold Mi.readName
  simp only [htake, hdrop, if_true]
  rw [if_neg]
  exact fun hempty => h.1 (List.isEmpty_iff.mp hempty)

theorem IsName.cons {name : List Char} (h : IsName name) :
    ∃ c rest, name = c :: rest ∧ isNameChar c = true := by
  obtain ⟨c, rest, rfl⟩ := List.exists_cons_of_ne_nil h.1
  exact ⟨c, rest, rfl, (isNameChar_iff c).mpr (h.2 c List.mem_cons_self)⟩

/-! ## Readers take nothing but texts of the grammar -/

/- A list begins where its first item does, so the length of the text alone does not go down
from the one to the other. -/
mutual

theorem value_text {cs after : List Char} {v : RecordValue} {hlength : after.length < cs.length}
    (h : value cs = .ok ⟨(v, after), hlength⟩) : ∃ text, ValueText v text ∧ cs = text ++ after := by
  unfold value at h
  split at h
  · split at h
    · cases h
    · rename_i hstring
      cases h
      obtain ⟨inner, hinner, rfl⟩ := stringRest_quoted hstring
      exact ⟨'"' :: (inner ++ ['"']), .const hinner, by simp⟩
  · cases h
    exact ⟨['{', '}'], .noFields, rfl⟩
  · split at h
    · cases h
    · rename_i hfields
      cases h
      obtain ⟨text, htext, rfl⟩ := fields_text hfields
      exact ⟨'{' :: (text ++ ['}']), .fields htext, by simp⟩
  · cases h
    exact ⟨['[', ']'], .noItems, rfl⟩
  · split at h
    · split at h
      · cases h
      · rename_i hitems
        cases h
        obtain ⟨text, htext, rfl⟩ := items_text hitems
        exact ⟨'[' :: (text ++ [']']), .items htext, by simp⟩
    · split at h
      · cases h
      · rename_i hfields
        cases h
        obtain ⟨text, htext, rfl⟩ := fields_text hfields
        exact ⟨'[' :: (text ++ [']']), .namedItems htext, by simp⟩
  · cases h
termination_by 3 * cs.length

theorem result_text {cs after : List Char} {f : String × RecordValue}
    {hlength : after.length < cs.length} (h : result cs = .ok ⟨(f, after), hlength⟩) :
    ∃ text, FieldText f text ∧ cs = text ++ after := by
  unfold result at h
  split at h
  · cases h
  · rename_i name rest hname
    have hrest := readName_length hname
    simp only at h
    split at h
    · cases h
    · rename_i hvalue
      cases h
      obtain ⟨chars, hchars, rfl, rfl⟩ := readName_named hname
      obtain ⟨text, htext, rfl⟩ := value_text hvalue
      exact ⟨chars ++ '=' :: text, .named hchars htext, by simp⟩
termination_by 3 * cs.length + 1

theorem fields_text {closing : Char} {cs after : List Char} {fs : List (String × RecordValue)}
    {hlength : after.length < cs.length} (h : fields closing cs = .ok ⟨(fs, after), hlength⟩) :
    ∃ text, FieldsText fs text ∧ cs = text ++ closing :: after := by
  unfold fields at h
  split at h
  · cases h
  · rename_i field behind hbehind hresult
    obtain ⟨text, htext, rfl⟩ := result_text hresult
    split at h
    · cases h
    · rename_i c rest _ _
      have hrest : rest.length < (text ++ c :: rest).length := Nat.lt_of_succ_lt hbehind
      simp only at h
      split at h
      · rename_i hcomma
        split at h
        · cases h
        · rename_i hfields
          cases h
          obtain ⟨texts, htexts, rfl⟩ := fields_text hfields
          exact ⟨text ++ ',' :: texts, .more htext htexts, by simp [hcomma]⟩
      · split at h
        · rename_i hclosing
          cases h
          exact ⟨text, .one htext, by rw [hclosing]⟩
        · cases h
termination_by 3 * cs.length + 2

theorem items_text {cs after : List Char} {vs : List RecordValue}
    {hlength : after.length < cs.length} (h : items cs = .ok ⟨(vs, after), hlength⟩) :
    ∃ text, ItemsText vs text ∧ cs = text ++ ']' :: after := by
  unfold items at h
  split at h
  · cases h
  · rename_i v behind hbehind hvalue
    obtain ⟨text, htext, rfl⟩ := value_text hvalue
    split at h
    · cases h
    · rename_i c rest _ _
      have hrest : rest.length < (text ++ c :: rest).length := Nat.lt_of_succ_lt hbehind
      simp only at h
      split at h
      · rename_i hcomma
        split at h
        · cases h
        · rename_i hitems
          cases h
          obtain ⟨texts, htexts, rfl⟩ := items_text hitems
          exact ⟨text ++ ',' :: texts, .more htext htexts, by simp [hcomma]⟩
      · split at h
        · rename_i hclosing
          cases h
          exact ⟨text, .one htext, by rw [hclosing]⟩
        · cases h
termination_by 3 * cs.length + 1

end

theorem results_text {cs : List Char} {fs : List (String × RecordValue)}
    (h : results cs = .ok fs) : ResultsText fs cs := by
  fun_induction results cs generalizing fs with
  | case1 =>
    cases h
    exact .nil
  | case2 | case4 => cases h
  | case3 rest field after _ hresult _ ih =>
    obtain ⟨text, htext, rfl⟩ := result_text hresult
    cases hafter : results after with
    | error f =>
      rw [hafter] at h
      cases h
    | ok more =>
      rw [hafter] at h
      cases h
      exact .cons htext (ih hafter)

/-! ## How the texts of the grammar begin -/

theorem ValueText.cons {v : RecordValue} {text : List Char} (h : ValueText v text) :
    ∃ c rest, text = c :: rest ∧ (c = '"' ∨ c = '{' ∨ c = '[') := by
  cases h <;> exact ⟨_, _, rfl, by simp⟩

theorem ItemsText.cons {vs : List RecordValue} {text : List Char} (h : ItemsText vs text) :
    ∃ c rest, text = c :: rest ∧ (c = '"' ∨ c = '{' ∨ c = '[') := by
  cases h with
  | one h => exact h.cons
  | more h =>
    obtain ⟨c, rest, rfl, hc⟩ := h.cons
    exact ⟨c, _, rfl, hc⟩

theorem FieldText.cons {f : String × RecordValue} {text : List Char} (h : FieldText f text) :
    ∃ c rest, text = c :: rest ∧ isNameChar c = true := by
  cases h with
  | named hname =>
    obtain ⟨c, rest, rfl, hc⟩ := hname.cons
    exact ⟨c, _, rfl, hc⟩

theorem FieldsText.cons {fs : List (String × RecordValue)} {text : List Char}
    (h : FieldsText fs text) : ∃ c rest, text = c :: rest ∧ isNameChar c = true := by
  cases h with
  | one h => exact h.cons
  | more h =>
    obtain ⟨c, rest, rfl, hc⟩ := h.cons
    exact ⟨c, _, rfl, hc⟩

theorem append_ne_cons {c d : Char} {text rest : List Char} (htext : text = c :: rest)
    (hcd : c ≠ d) (after : List Char) : ∀ r, text ++ after ≠ d :: r := by
  rintro r h
  rw [htext] at h
  exact hcd (List.cons.inj h).1

/-! ## Readers take every text of the grammar -/

/-- The reader has come to the value `a` and left `after`. -/
def Read.Gives {α : Type} {cs : List Char} (r : Read α cs) (a : α) (after : List Char) : Prop :=
  ∃ hlength, r = .ok ⟨(a, after), hlength⟩

theorem value_quote {rest text after : List Char} (h : stringRest rest = some (text, after)) :
    (value ('"' :: rest)).Gives (.const (String.ofList text)) after := by
  rw [value]
  split
  · rename_i hnone
    exact absurd (h.symm.trans hnone) (by simp)
  · rename_i hsome
    cases h.symm.trans hsome
    exact ⟨_, rfl⟩

theorem value_brace {rest after : List Char} {fs : List (String × RecordValue)}
    (hclosing : ∀ r, rest ≠ '}' :: r) (h : (fields '}' rest).Gives fs after) :
    (value ('{' :: rest)).Gives (.tuple fs) after := by
  obtain ⟨_, h⟩ := h
  rw [value.eq_3 _ hclosing, h]
  exact ⟨_, rfl⟩

theorem value_items {rest after : List Char} {vs : List RecordValue}
    (hclosing : ∀ r, rest ≠ ']' :: r)
    (hhead : rest.head? = some '"' ∨ rest.head? = some '{' ∨ rest.head? = some '[')
    (h : (items rest).Gives vs after) : (value ('[' :: rest)).Gives (.list vs) after := by
  obtain ⟨_, h⟩ := h
  rw [value.eq_5 _ hclosing, if_pos hhead, h]
  exact ⟨_, rfl⟩

theorem value_namedItems {rest after : List Char} {fs : List (String × RecordValue)}
    (hclosing : ∀ r, rest ≠ ']' :: r)
    (hhead : ¬(rest.head? = some '"' ∨ rest.head? = some '{' ∨ rest.head? = some '['))
    (h : (fields ']' rest).Gives fs after) :
    (value ('[' :: rest)).Gives (.list (fs.map fun f => .tuple [f])) after := by
  obtain ⟨_, h⟩ := h
  rw [value.eq_5 _ hclosing, if_neg hhead, h]
  exact ⟨_, rfl⟩

theorem result_named {cs rest after : List Char} {name : String} {v : RecordValue}
    (hname : readName cs = .ok (name, rest)) (h : (value rest).Gives v after) :
    (result cs).Gives (name, v) after := by
  obtain ⟨_, h⟩ := h
  rw [result]
  split
  · rename_i hfault
    exact absurd (hname.symm.trans hfault) (by simp)
  · rename_i hread
    cases hname.symm.trans hread
    simp only [h]
    exact ⟨_, rfl⟩

theorem fields_last {closing : Char} {cs after : List Char} {f : String × RecordValue}
    (hclosing : closing ≠ ',') (h : (result cs).Gives f (closing :: after)) :
    (fields closing cs).Gives [f] after := by
  obtain ⟨_, h⟩ := h
  rw [fields, h]
  simp only [if_neg hclosing, if_true]
  exact ⟨_, rfl⟩

theorem fields_comma {closing : Char} {cs rest after : List Char} {f : String × RecordValue}
    {fs : List (String × RecordValue)} (h : (result cs).Gives f (',' :: rest))
    (hs : (fields closing rest).Gives fs after) : (fields closing cs).Gives (f :: fs) after := by
  obtain ⟨_, h⟩ := h
  obtain ⟨_, hs⟩ := hs
  rw [fields, h]
  simp only [if_true, hs]
  exact ⟨_, rfl⟩

theorem items_last {cs after : List Char} {v : RecordValue}
    (h : (value cs).Gives v (']' :: after)) : (items cs).Gives [v] after := by
  obtain ⟨_, h⟩ := h
  rw [items, h]
  exact ⟨_, rfl⟩

theorem items_comma {cs rest after : List Char} {v : RecordValue} {vs : List RecordValue}
    (h : (value cs).Gives v (',' :: rest)) (hs : (items rest).Gives vs after) :
    (items cs).Gives (v :: vs) after := by
  obtain ⟨_, h⟩ := h
  obtain ⟨_, hs⟩ := hs
  rw [items, h]
  simp only [if_true, hs]
  exact ⟨_, rfl⟩

mutual

theorem ValueText.value {v : RecordValue} {text : List Char} (h : ValueText v text)
    (after : List Char) : (value (text ++ after)).Gives v after := by
  match h with
  | .const h =>
    rw [List.cons_append, List.append_assoc]
    exact value_quote (h.stringRest after)
  | .noFields => exact ⟨_, Mi.value.eq_2 after⟩
  | .fields h =>
    obtain ⟨c, rest, hcons, hc⟩ := h.cons
    have hclosing : c ≠ '}' := by
      rintro rfl
      exact absurd hc (by decide)
    have hfields := h.fields '}' (by decide) after
    rw [List.cons_append, List.append_assoc]
    exact value_brace (append_ne_cons hcons hclosing _) hfields
  | .noItems => exact ⟨_, Mi.value.eq_4 after⟩
  | .items h =>
    obtain ⟨c, rest, hcons, hc⟩ := h.cons
    have hclosing : c ≠ ']' := by
      rintro rfl
      exact absurd hc (by decide)
    have hitems := h.items after
    rw [List.cons_append, List.append_assoc]
    refine value_items (append_ne_cons hcons hclosing _) ?_ hitems
    rw [hcons]
    simpa using hc
  | .namedItems h =>
    obtain ⟨c, rest, hcons, hc⟩ := h.cons
    have hclosing : c ≠ ']' := by
      rintro rfl
      exact absurd hc (by decide)
    have hfields := h.fields ']' (by decide) after
    rw [List.cons_append, List.append_assoc]
    refine value_namedItems (append_ne_cons hcons hclosing _) (fun hhead => ?_) hfields
    rw [hcons] at hhead
    simp only [List.cons_append, List.head?_cons, Option.some.injEq] at hhead
    rcases hhead with rfl | rfl | rfl <;> exact absurd hc (by decide)

theorem FieldText.result {f : String × RecordValue} {text : List Char} (h : FieldText f text)
    (after : List Char) : (result (text ++ after)).Gives f after := by
  match h with
  | @FieldText.named name text v hname h =>
    have hread := hname.readName (text ++ after)
    rw [List.append_assoc, List.cons_append]
    exact result_named hread (h.value after)

theorem FieldsText.fields {fs : List (String × RecordValue)} {text : List Char}
    (h : FieldsText fs text) (closing : Char) (hclosing : closing ≠ ',') (after : List Char) :
    (fields closing (text ++ closing :: after)).Gives fs after := by
  match h with
  | .one h => exact fields_last hclosing (h.result _)
  | @FieldsText.more f fs text texts h hs =>
    have hfirst := h.result (',' :: (texts ++ closing :: after))
    rw [List.append_assoc, List.cons_append]
    exact fields_comma hfirst (hs.fields closing hclosing after)

theorem ItemsText.items {vs : List RecordValue} {text : List Char} (h : ItemsText vs text)
    (after : List Char) : (items (text ++ ']' :: after)).Gives vs after := by
  match h with
  | .one h => exact items_last (h.value _)
  | @ItemsText.more v vs text texts h hs =>
    have hfirst := h.value (',' :: (texts ++ ']' :: after))
    rw [List.append_assoc, List.cons_append]
    exact items_comma hfirst (hs.items after)

end

theorem ResultsText.results {fs : List (String × RecordValue)} {text : List Char}
    (h : ResultsText fs text) : results text = .ok fs := by
  induction h with
  | nil => exact Mi.results.eq_1
  | cons h _ ih =>
    obtain ⟨_, hresult⟩ := h.result _
    rw [Mi.results, if_pos rfl, hresult]
    simp only [ih]
    rfl

/-! ## Readers without the lengths that they carry -/

variable {cs rest : List Char}

/-- What was read, and the rest of the text. -/
def readOf {α : Type} {cs : List Char} (r : Read α cs) : Except Fault (α × List Char) :=
  r.map Subtype.val

theorem readOf_eq_ok {α : Type} {cs : List Char} {r : Read α cs} {a : α} {after : List Char}
    (h : readOf r = .ok (a, after)) : ∃ hlength, r = .ok ⟨(a, after), hlength⟩ := by
  cases r with
  | error f => cases h
  | ok read =>
    obtain ⟨⟨b, rest⟩, hlength⟩ := read
    cases h
    exact ⟨hlength, rfl⟩

theorem value_string (rest : List Char) :
    readOf (value ('"' :: rest)) =
      match stringRest rest with
      | none => .error ⟨.openString, []⟩
      | some (text, after) => .ok (.const (String.ofList text), after) := by
  rw [value]
  split <;> rename_i hstring <;> conv => rhs; rw [hstring]
  all_goals rfl

theorem value_noFields (rest : List Char) :
    readOf (value ('{' :: '}' :: rest)) = .ok (.tuple [], rest) := by
  rw [value]
  rfl

theorem value_fields (h : rest.head? ≠ some '}') :
    readOf (value ('{' :: rest)) =
      readOf (fields '}' rest) >>= fun fs => .ok (.tuple fs.1, fs.2) := by
  rw [value]
  · cases fields '}' rest <;> rfl
  · rintro _ rfl
    exact h rfl

theorem value_noItems (rest : List Char) :
    readOf (value ('[' :: ']' :: rest)) = .ok (.list [], rest) := by
  rw [value]
  rfl

def HoldsValues (cs : List Char) : Prop :=
  cs.head? = some '"' ∨ cs.head? = some '{' ∨ cs.head? = some '['

instance (cs : List Char) : Decidable (HoldsValues cs) := inferInstanceAs (Decidable (_ ∨ _))

theorem value_list (h : rest.head? ≠ some ']') :
    readOf (value ('[' :: rest)) =
      if HoldsValues rest then readOf (items rest) >>= fun vs => .ok (.list vs.1, vs.2)
      else readOf (fields ']' rest) >>= fun fs =>
        .ok (.list (fs.1.map fun f => .tuple [f]), fs.2) := by
  rw [value]
  · by_cases hvalues : HoldsValues rest
    · rw [if_pos hvalues]
      refine (congrArg readOf (if_pos hvalues)).trans ?_
      cases items rest <;> rfl
    · rw [if_neg hvalues]
      refine (congrArg readOf (if_neg hvalues)).trans ?_
      cases fields ']' rest <;> rfl
  · rintro _ rfl
    exact h rfl

theorem value_other (h : ¬HoldsValues cs) :
    readOf (value cs) = .error ⟨.expectedValue, cs⟩ := by
  rw [value.eq_def]
  split
  · exact absurd (.inl rfl) h
  · exact absurd (.inr (.inl rfl)) h
  · exact absurd (.inr (.inl rfl)) h
  · exact absurd (.inr (.inr rfl)) h
  · exact absurd (.inr (.inr rfl)) h
  · rfl

theorem result_eq (cs : List Char) :
    readOf (result cs) =
      readName cs >>= fun n => readOf (value n.2) >>= fun v => .ok ((n.1, v.1), v.2) := by
  rw [result]
  split
  · rename_i hname
    rw [hname]
    rfl
  · rename_i name rest hname
    conv => rhs; rw [hname]
    show readOf _ = readOf (value rest) >>= _
    cases value rest <;> rfl

theorem fields_eq (closing : Char) (cs : List Char) :
    readOf (fields closing cs) = readOf (result cs) >>= fun field =>
      if field.2.head? = some ',' then
        readOf (fields closing field.2.tail) >>= fun more => .ok (field.1 :: more.1, more.2)
      else if field.2.head? = some closing then .ok ([field.1], field.2.tail)
      else .error ⟨.unclosed closing, field.2⟩ := by
  rw [fields]
  cases result cs with
  | error f => rfl
  | ok read =>
    obtain ⟨⟨field, after⟩, hlength⟩ := read
    cases after with
    | nil => rfl
    | cons c rest =>
      show _ = ite (some c = some ',') _ _
      simp only [Option.some.injEq, List.tail_cons, List.head?_cons]
      split
      · cases fields closing rest <;> rfl
      · split <;> rfl

theorem items_eq (cs : List Char) :
    readOf (items cs) = readOf (value cs) >>= fun item =>
      if item.2.head? = some ',' then
        readOf (items item.2.tail) >>= fun more => .ok (item.1 :: more.1, more.2)
      else if item.2.head? = some ']' then .ok ([item.1], item.2.tail)
      else .error ⟨.unclosed ']', item.2⟩ := by
  rw [items]
  cases value cs with
  | error f => rfl
  | ok read =>
    obtain ⟨⟨item, after⟩, hlength⟩ := read
    cases after with
    | nil => rfl
    | cons c rest =>
      show _ = ite (some c = some ',') _ _
      simp only [Option.some.injEq, List.tail_cons, List.head?_cons]
      split
      · cases items rest <;> rfl
      · split <;> rfl

theorem results_eq (cs : List Char) :
    results cs =
      if cs = [] then .ok []
      else if cs.head? = some ',' then
        readOf (result cs.tail) >>= fun field =>
          results field.2 >>= fun more => .ok (field.1 :: more)
      else .error ⟨.expected ',', cs⟩ := by
  cases cs with
  | nil => rw [results, if_pos rfl]
  | cons c rest =>
    rw [results, if_neg (List.cons_ne_nil c rest)]
    simp only [Option.some.injEq, List.tail_cons, List.head?_cons]
    split
    · cases result rest with
      | error f => rfl
      | ok read =>
        obtain ⟨⟨field, after⟩, hlength⟩ := read
        show Except.map _ (results after) = results after >>= _
        cases results after <;> rfl
    · rfl

theorem stringRest_suffix {text : List Char} (h : stringRest cs = some (text, rest)) :
    rest <:+ cs := by
  obtain ⟨inner, -, rfl⟩ := stringRest_quoted h
  exact (List.suffix_cons '"' rest).trans (List.suffix_append ..)

theorem readName_suffix {variableName : String} (h : readName cs = .ok (variableName, rest)) :
    rest <:+ cs := by
  obtain ⟨chars, -, -, rfl⟩ := readName_named h
  exact (List.suffix_cons '=' rest).trans (List.suffix_append ..)

theorem value_suffix {v : RecordValue} (h : readOf (value cs) = .ok (v, rest)) : rest <:+ cs := by
  obtain ⟨_, hvalue⟩ := readOf_eq_ok h
  obtain ⟨text, -, hcs⟩ := value_text hvalue
  exact ⟨text, hcs.symm⟩

theorem result_suffix {field : String × RecordValue}
    (h : readOf (result cs) = .ok (field, rest)) : rest <:+ cs := by
  obtain ⟨_, hresult⟩ := readOf_eq_ok h
  obtain ⟨text, -, hcs⟩ := result_text hresult
  exact ⟨text, hcs.symm⟩

end Mi
end CheckScript
