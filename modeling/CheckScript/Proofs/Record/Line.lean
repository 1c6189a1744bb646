/-
Lines of the machine interface that say a result or something asynchronous.

Nothing of such a line is passed over, and no other line is taken for one: a line is read as
a record of these kinds exactly if the grammar derives it for that record
(`read_iff_lineText`).
-/
import CheckScript.Proofs.Record.Grammar
import CheckScript.Proofs.Record.Token
import CheckScript.Proofs.Text.Runs

namespace CheckScript
namespace Mi

/-- The sign before a record.  Prompts and unstructured lines have none. -/
def sign? : RecordKind → Option Char
  | .result => some '^'
  | .exec => some '*'
  | .status => some '+'
  | .notify => some '='
  | .console => some '~'
  | .target => some '@'
  | .log => some '&'
  | .prompt | .raw => none

/-- The kinds of the records with a class. -/
def classKinds : List RecordKind := [.result, .exec, .status, .notify]

def streamKinds : List RecordKind := [.console, .target, .log]

theorem kinds_of_sign {kind : RecordKind} {sign : Char} (h : sign? kind = some sign) :
    kind ∈ classKinds ∨ kind ∈ streamKinds := by
  cases kind <;> first | exact .inl (by decide) | exact .inr (by decide) | cases h

theorem not_streamKinds {kind : RecordKind} (h : kind ∈ classKinds) : kind ∉ streamKinds := by
  cases kind <;> first | decide | exact absurd h (by decide)

/-- The lines of a record with a class: digits, the sign of its kind, its class, and its
results, each behind a comma. -/
inductive LineText : Record → List Char → Prop where
  | classed {digits className text : List Char} {sign : Char} {kind : RecordKind}
      {fs : List (String × RecordValue)} (hdigits : ∀ c ∈ digits, Text.isDigit c = true)
      (hkind : kind ∈ classKinds) (hsign : sign? kind = some sign)
      (hnonempty : className ≠ []) (hcomma : ',' ∉ className)
      (hknown : kind = .result → String.ofList className ∈ resultClasses)
      (hresults : ResultsText fs text) :
      LineText
        { line := String.ofList (digits ++ sign :: (className ++ text))
          token := tokenOf digits, kind, className := String.ofList className
          results := .tuple fs, text := none }
        (digits ++ sign :: (className ++ text))

/-! ## Behind the sign -/

theorem structured_text {line cs : List Char} {token : Option Nat} {kind : RecordKind}
    {r : Record} (h : structured line token kind cs = .ok r) :
    ∃ className text fs, cs = className ++ text ∧ className ≠ [] ∧ ',' ∉ className ∧
      (kind = .result → String.ofList className ∈ resultClasses) ∧ ResultsText fs text ∧
      r = { line := String.ofList line, token, kind, className := String.ofList className
            results := .tuple fs, text := none } := by
  unfold structured at h
  simp only at h
  split at h
  · cases h
  · rename_i hempty
    split at h
    · cases h
    · rename_i hknown
      cases hresults : results (cs.dropWhile (· != ',')) with
      | error f =>
        rw [hresults] at h
        cases h
      | ok fs =>
        rw [hresults] at h
        cases h
        refine ⟨cs.takeWhile (· != ','), cs.dropWhile (· != ','), fs,
          List.takeWhile_append_dropWhile.symm, ?_, ?_, ?_, results_text hresults, rfl⟩
        · exact fun hnil => hempty (List.isEmpty_iff.mpr hnil)
        · intro hmem
          have hne := List.all_eq_true.mp List.all_takeWhile _ hmem
          simp at hne
        · exact fun hkind => Decidable.not_not.mp (not_and.mp hknown hkind)

theorem structured_ok {line className text : List Char} {token : Option Nat} {kind : RecordKind}
    {fs : List (String × RecordValue)} (hnonempty : className ≠ []) (hcomma : ',' ∉ className)
    (hknown : kind = .result → String.ofList className ∈ resultClasses)
    (hresults : ResultsText fs text) :
    structured line token kind (className ++ text) =
      .ok { line := String.ofList line, token, kind, className := String.ofList className
            results := .tuple fs, text := none } := by
  have hclass : ∀ c ∈ className, (c != ',') = true := by
    intro c hc
    exact bne_iff_ne.mpr fun h => hcomma (h ▸ hc)
  have hbehind : text.takeWhile (· != ',') = [] ∧ text.dropWhile (· != ',') = text := by
    cases hresults <;> exact ⟨rfl, rfl⟩
  have htake : (className ++ text).takeWhile (· != ',') = className := by
    rw [List.takeWhile_append_of_pos hclass, hbehind.1, List.append_nil]
  have hdrop : (className ++ text).dropWhile (· != ',') = text := by
    rw [List.dropWhile_append_of_pos hclass, hbehind.2]
  unfold structured
  simp only [htake, hdrop]
  rw [if_neg (fun h => hnonempty (List.isEmpty_iff.mp h)), if_neg (fun h => h.2 (hknown h.1)),
    hresults.results]
  rfl

theorem structured_record {line cs : List Char} {token : Option Nat} {kind : RecordKind}
    {r : Record} (h : structured line token kind cs = .ok r) : r.kind = kind ∧ r.token = token := by
  obtain ⟨_, _, _, -, -, -, -, -, rfl⟩ := structured_text h
  exact ⟨rfl, rfl⟩

theorem streamed_record {line cs : List Char} {kind : RecordKind} {r : Record}
    (h : streamed line kind cs = .ok r) : r.kind = kind ∧ r.token = none := by
  unfold streamed at h
  split at h
  · split at h
    · cases h
    · cases h
      exact ⟨rfl, rfl⟩
    · cases h
  · cases h

/-! ## The whole line -/

theorem trimEnd_prefix (cs : List Char) : Text.trimEnd cs <+: cs := by
  have hsuffix := List.dropWhile_suffix (l := cs.reverse) Text.isBlank
  simpa [Text.trimEnd] using List.reverse_prefix.mpr hsuffix

/-- What is left of a line without the blanks around it begins as the line does, blanks
apart. -/
theorem head_of_trimChars {cs rest : List Char} {c : Char} (h : Text.trimChars cs = c :: rest) :
    ∃ d more, cs = d :: more ∧ (Text.isBlank d = true ∨ d = c) := by
  cases cs with
  | nil => cases h
  | cons d more =>
    refine ⟨d, more, rfl, ?_⟩
    by_cases hblank : Text.isBlank d = true
    · exact .inl hblank
    · have hstart : Text.trimStart (d :: more) = d :: more :=
        List.dropWhile_cons_of_neg hblank
      have hprefix := trimEnd_prefix (d :: more)
      rw [Text.trimChars, hstart] at h
      rw [h] at hprefix
      exact .inr (List.cons_prefix_cons.mp hprefix).1.symm

/-- What begins with neither a blank nor a bracket is no prompt. -/
theorem trimChars_ne_prompt_of_head {c : Char} {cs : List Char} (hblank : Text.isBlank c = false)
    (hbracket : c ≠ '(') : Text.trimChars (c :: cs) ≠ "(gdb)".toList := by
  intro h
  have hprompt : Text.trimChars (c :: cs) = '(' :: "gdb)".toList := h
  obtain ⟨d, more, hcons, hd⟩ := head_of_trimChars hprompt
  obtain ⟨rfl, -⟩ := List.cons.inj hcons
  rcases hd with hd | hd
  · rw [hblank] at hd
    exact Bool.false_ne_true hd
  · exact hbracket hd

theorem trimChars_ne_prompt_of_digit {c : Char} {cs : List Char} (h : Text.isDigit c = true) :
    Text.trimChars (c :: cs) ≠ "(gdb)".toList := by
  refine trimChars_ne_prompt_of_head (Text.isBlank_of_isDigit h) ?_
  rintro rfl
  exact absurd h (by decide)

/-- A line that begins with digits and a sign is no prompt. -/
theorem trimChars_ne_prompt {digits rest : List Char} {sign : Char} {kind : RecordKind}
    (hdigits : ∀ c ∈ digits, Text.isDigit c = true) (hsign : sign? kind = some sign) :
    Text.trimChars (digits ++ sign :: rest) ≠ "(gdb)".toList := by
  cases digits with
  | nil =>
    have hother : Text.isBlank sign = false ∧ sign ≠ '(' := by
      cases kind <;> cases hsign <;> decide
    exact trimChars_ne_prompt_of_head hother.1 hother.2
  | cons c digits => exact trimChars_ne_prompt_of_digit (hdigits c List.mem_cons_self)

theorem splitDigits_sign {digits rest : List Char} {sign : Char} {kind : RecordKind}
    (hdigits : ∀ c ∈ digits, Text.isDigit c = true) (hsign : sign? kind = some sign) :
    splitDigits (digits ++ sign :: rest) = (digits, sign :: rest) := by
  refine splitDigits_append hdigits ?_
  rintro c ⟨⟩
  cases kind <;> cases hsign <;> decide

/-- Behind digits and the sign of a class stands a record with a class. -/
theorem readLine_classed {digits rest : List Char} {sign : Char} {kind : RecordKind}
    (hdigits : ∀ c ∈ digits, Text.isDigit c = true) (hkind : kind ∈ classKinds)
    (hsign : sign? kind = some sign) :
    readLine (digits ++ sign :: rest) =
      structured (digits ++ sign :: rest) (tokenOf digits) kind rest := by
  unfold readLine
  simp only [splitDigits_sign hdigits hsign]
  rw [if_neg (trimChars_ne_prompt hdigits hsign)]
  simp only [classKinds, List.mem_cons, List.not_mem_nil, or_false] at hkind
  rcases hkind with rfl | rfl | rfl | rfl <;> cases hsign <;> rfl

/-- Behind digits that are no token the sign of a stream is one. -/
theorem readLine_streamed {digits rest : List Char} {sign : Char} {kind : RecordKind}
    (hdigits : ∀ c ∈ digits, Text.isDigit c = true) (hkind : kind ∈ streamKinds)
    (hsign : sign? kind = some sign) :
    readLine (digits ++ sign :: rest) =
      if (tokenOf digits).isNone then streamed (digits ++ sign :: rest) kind rest
      else .ok (.raw (String.ofList (digits ++ sign :: rest))) := by
  unfold readLine
  simp only [splitDigits_sign hdigits hsign]
  rw [if_neg (trimChars_ne_prompt hdigits hsign)]
  simp only [streamKinds, List.mem_cons, List.not_mem_nil, or_false] at hkind
  rcases hkind with rfl | rfl | rfl <;> cases hsign <;> rfl

/-- A line without a sign behind its digits has no structure, unless it is a prompt. -/
theorem readLine_unsigned {line : List Char}
    (h : ∀ kind sign, sign? kind = some sign → (splitDigits line).2.head? ≠ some sign) :
    readLine line =
      if Text.trimChars line = "(gdb)".toList then .ok (.prompt (String.ofList line))
      else .ok (.raw (String.ofList line)) := by
  unfold readLine
  simp only
  split
  · rfl
  · split
    case h_1 hrest => exact absurd (congrArg List.head? hrest) (h .result '^' rfl)
    case h_2 hrest => exact absurd (congrArg List.head? hrest) (h .exec '*' rfl)
    case h_3 hrest => exact absurd (congrArg List.head? hrest) (h .status '+' rfl)
    case h_4 hrest => exact absurd (congrArg List.head? hrest) (h .notify '=' rfl)
    case h_5 hrest => exact absurd (congrArg List.head? hrest) (h .console '~' rfl)
    case h_6 hrest => exact absurd (congrArg List.head? hrest) (h .target '@' rfl)
    case h_7 hrest => exact absurd (congrArg List.head? hrest) (h .log '&' rfl)
    case h_8 => rfl

/-- The ways in which a line is read as a record. -/
inductive Shows (line : List Char) : Record → Prop where
  | classed {rest : List Char} {sign : Char} {kind : RecordKind} {r : Record}
      (hkind : kind ∈ classKinds) (hsign : sign? kind = some sign)
      (hrest : (splitDigits line).2 = sign :: rest)
      (hread : structured line (tokenOf (splitDigits line).1) kind rest = .ok r) : Shows line r
  | streamed {rest : List Char} {sign : Char} {kind : RecordKind} {r : Record}
      (hkind : kind ∈ streamKinds) (hsign : sign? kind = some sign)
      (hrest : (splitDigits line).2 = sign :: rest)
      (htoken : tokenOf (splitDigits line).1 = none)
      (hread : streamed line kind rest = .ok r) : Shows line r
  | prompt (htrim : Text.trimChars line = "(gdb)".toList) : Shows line (.prompt (String.ofList line))
  | raw : Shows line (.raw (String.ofList line))

theorem readLine_shows {line : List Char} {r : Record} (h : readLine line = .ok r) :
    Shows line r := by
  by_cases hsigned :
    ∃ kind sign, sign? kind = some sign ∧ (splitDigits line).2.head? = some sign
  · obtain ⟨kind, sign, hsign, hhead⟩ := hsigned
    obtain ⟨rest, hrest⟩ := List.head?_eq_some_iff.mp hhead
    have hdigits := splitDigits_digits line
    have hline : (splitDigits line).1 ++ sign :: rest = line := by
      rw [← hrest, splitDigits_join]
    rcases kinds_of_sign hsign with hkind | hkind
    · have hread : readLine ((splitDigits line).1 ++ sign :: rest) = _ :=
        readLine_classed hdigits hkind hsign
      rw [hline, h] at hread
      exact .classed hkind hsign hrest hread.symm
    · have hread : readLine ((splitDigits line).1 ++ sign :: rest) = _ :=
        readLine_streamed hdigits hkind hsign
      rw [hline, h] at hread
      cases htoken : tokenOf (splitDigits line).1 with
      | none =>
        rw [htoken, if_pos Option.isNone_none] at hread
        exact .streamed hkind hsign hrest htoken hread.symm
      | some t =>
        rw [htoken, if_neg (Bool.eq_false_iff.mp Option.isNone_some)] at hread
        obtain rfl := Except.ok.inj hread
        exact .raw
  · have hunsigned : ∀ kind sign, sign? kind = some sign →
        (splitDigits line).2.head? ≠ some sign :=
      fun kind sign hsign hhead => hsigned ⟨kind, sign, hsign, hhead⟩
    rw [readLine_unsigned hunsigned] at h
    split at h
    · rename_i htrim
      obtain rfl := Except.ok.inj h
      exact .prompt htrim
    · obtain rfl := Except.ok.inj h
      exact .raw

theorem readLine_text {line : List Char} {r : Record} (h : readLine line = .ok r)
    (hkind : r.kind ∈ classKinds) : LineText r line := by
  cases readLine_shows h with
  | classed hclass hsign hrest hread =>
    obtain ⟨className, text, fs, rfl, hnonempty, hcomma, hknown, hresults, rfl⟩ :=
      structured_text hread
    have htext := LineText.classed (splitDigits_digits line) hclass hsign hnonempty hcomma hknown
      hresults
    rwa [← hrest, splitDigits_join] at htext
  | streamed hstream _ _ _ hread =>
    rw [(streamed_record hread).1] at hkind
    exact absurd hstream (not_streamKinds hkind)
  | prompt | raw => exact absurd hkind (by simp [Record.prompt, Record.raw, classKinds])

/-- Only records with a class carry a token. -/
theorem kind_of_token {line : List Char} {r : Record} (h : readLine line = .ok r)
    (htoken : r.token ≠ none) : r.kind ∈ classKinds := by
  cases readLine_shows h with
  | classed hclass _ _ hread => exact (structured_record hread).1 ▸ hclass
  | streamed _ _ _ _ hread => exact absurd (streamed_record hread).2 htoken
  | prompt | raw => exact absurd rfl htoken

theorem LineText.readLine {line : List Char} {r : Record} (h : LineText r line) :
    readLine line = .ok r := by
  obtain ⟨hdigits, hkind, hsign, hnonempty, hcomma, hknown, hresults⟩ := h
  rw [readLine_classed hdigits hkind hsign]
  exact structured_ok hnonempty hcomma hknown hresults

theorem LineText.kind {line : List Char} {r : Record} (h : LineText r line) :
    r.kind ∈ classKinds := by
  obtain ⟨-, hkind, -, -, -, -, -⟩ := h
  exact hkind

theorem read_eq_ok {line : String} {r : Record} :
    Mi.read line = .ok r ↔ readLine (Text.dropReturn line.toList) = .ok r := by
  unfold Mi.read
  simp only
  cases readLine (Text.dropReturn line.toList) with
  | error f => exact ⟨fun h => (nomatch h), fun h => (nomatch h)⟩
  | ok a => exact ⟨fun h => by cases h; rfl, fun h => by cases h; rfl⟩

/-- A line is read as a record with a class exactly if it is a line of that record, one
carriage return at its end apart. -/
theorem read_iff_lineText (line : String) (r : Record) :
    Mi.read line = .ok r ∧ r.kind ∈ classKinds ↔ LineText r (Text.dropReturn line.toList) := by
  rw [read_eq_ok]
  exact ⟨fun h => readLine_text h.1 h.2, fun h => ⟨h.readLine, h.kind⟩⟩

end Mi
end CheckScript
