/-
Digits in front of a line.

A number of 64 bits in front of a record with a class is its token, and nothing with a number in
front is a stream.  A larger number is no token, and a line is then read as if it began
behind its digits.  So digits are kept wherever a line has no structure or its number has
64 bits, and nowhere else (`keepsDigits_iff`).
-/
import CheckScript.Proofs.Decision
import CheckScript.Proofs.Record.Line
import CheckScript.Proofs.Text.Lines

namespace CheckScript
namespace Mi

/-- The digits that a line begins with. -/
def leading (line : String) : List Char := line.toList.takeWhile Text.isDigit

/-- What stands behind the leading digits of a line. -/
def behind (line : String) : List Char := line.toList.dropWhile Text.isDigit

/-- No digit in front of the line gets lost: they are the token of a record with a class; they
do not stand in front of a stream; and with anything else behind them the line has no structure
or is at fault. -/
structure KeepsDigits (line : String) : Prop where
  token : ∀ r, Mi.read line = .ok r → r.kind ∈ classKinds → leading line ≠ [] →
    r.token = some (Integer.ofDigits (leading line))
  stream : ∀ r, Mi.read line = .ok r → r.kind ∈ streamKinds →
    line.toList.head? = sign? r.kind ∧ leading line = []
  other : leading line ≠ [] → (∀ kind ∈ classKinds, (behind line).head? ≠ sign? kind) →
    Mi.read line = .ok (.raw (String.ofList (Text.dropReturn line.toList))) ∨
      ∃ fault, Mi.read line = .error fault

/-! ## The parts of a line -/

theorem leading_behind (line : String) : leading line ++ behind line = line.toList :=
  List.takeWhile_append_dropWhile

theorem leading_digits (line : String) : ∀ c ∈ leading line, Text.isDigit c = true :=
  List.all_eq_true.mp List.all_takeWhile

theorem dropReturn_digits {digits : List Char} (h : ∀ c ∈ digits, Text.isDigit c = true)
    (rest : List Char) : Text.dropReturn (digits ++ rest) = digits ++ Text.dropReturn rest := by
  induction digits with
  | nil => rfl
  | cons c digits ih =>
    obtain ⟨hc, hdigits⟩ := List.forall_mem_cons.mp h
    have hreturn : c ≠ '\r' := by
      rintro rfl
      exact absurd hc (by decide)
    rw [List.cons_append, Text.dropReturn_cons hreturn, ih hdigits, List.cons_append]

/-- The carriage return that a line may lose stands behind its digits. -/
theorem splitDigits_dropReturn (line : String) :
    splitDigits (Text.dropReturn line.toList) = (leading line, Text.dropReturn (behind line)) := by
  have hdigits := leading_digits line
  rw [← leading_behind line, dropReturn_digits hdigits]
  refine splitDigits_append hdigits fun c hc => ?_
  obtain ⟨gap, hgap, -⟩ := Text.dropReturn_append (behind line)
  have hhead : (behind line).head? = some c := by
    rw [← hgap, List.head?_append, hc, Option.some_or]
  have hends := List.head?_dropWhile_not Text.isDigit line.toList
  have hsame : (line.toList.dropWhile Text.isDigit).head? = some c := hhead
  rw [hsame] at hends
  exact hends

theorem head_behind {line : String} {sign : Char} {rest : List Char}
    (h : Text.dropReturn (behind line) = sign :: rest) : (behind line).head? = some sign := by
  obtain ⟨gap, hgap, -⟩ := Text.dropReturn_append (behind line)
  rw [← hgap, h]
  rfl

/-- Leading digits are a token, unless there are none or their number is too large. -/
theorem tokenOf_leading {line : String} :
    tokenOf (leading line) = none ↔
      leading line = [] ∨ Nat.pow 2 64 ≤ Integer.ofDigits (leading line) := by
  have hsome : ∀ t, tokenOf (leading line) = some t ↔ Spells (leading line) t := fun t =>
    tokenOf_eq_some (leading_digits line)
  constructor
  · intro hnone
    by_cases hempty : leading line = []
    · exact .inl hempty
    · refine .inr (Nat.le_of_not_lt fun hfits => ?_)
      have htoken := (hsome _).mpr ⟨hempty, leading_digits line, rfl, hfits⟩
      rw [hnone] at htoken
      cases htoken
  · intro h
    cases htoken : tokenOf (leading line) with
    | none => rfl
    | some t =>
      obtain ⟨hne, -, hvalue, hfits⟩ := (hsome t).mp htoken
      rcases h with hempty | hlarge
      · exact absurd hempty hne
      · omega

/-! ## Large numbers -/

/-- The line of a record is all that the reader of its text takes from the whole line. -/
theorem structured_line {line other cs : List Char} {token : Option Nat} {kind : RecordKind}
    {r : Record} (h : structured line token kind cs = .ok r) :
    structured other token kind cs = .ok { r with line := String.ofList other } := by
  obtain ⟨className, text, fs, rfl, hnonempty, hcomma, hknown, hresults, rfl⟩ := structured_text h
  exact structured_ok hnonempty hcomma hknown hresults

theorem streamed_line {line other cs : List Char} {kind : RecordKind} {r : Record}
    (h : streamed line kind cs = .ok r) :
    streamed other kind cs = .ok { r with line := String.ofList other } := by
  unfold streamed at h ⊢
  split at h
  · split at h
    · cases h
    · obtain rfl := Except.ok.inj h
      rfl
    · cases h
  · cases h

/-- A line with digits in front is no prompt. -/
theorem leading_of_prompt {line : String}
    (h : Text.trimChars (Text.dropReturn line.toList) = "(gdb)".toList) : leading line = [] := by
  have hline : Text.dropReturn line.toList = leading line ++ Text.dropReturn (behind line) := by
    have hdigits := leading_digits line
    rw [← leading_behind line, dropReturn_digits hdigits]
  cases hleading : leading line with
  | nil => rfl
  | cons c digits =>
    have hc : Text.isDigit c = true := leading_digits line c (hleading ▸ List.mem_cons_self)
    rw [hline, hleading] at h
    exact absurd h (trimChars_ne_prompt_of_digit hc)

/-- A line with a number of more than 64 bits in front is read as what stands behind the
number. -/
theorem read_behind {line : String} (hlarge : Nat.pow 2 64 ≤ Integer.ofDigits (leading line))
    {r : Record} (h : Mi.read line = .ok r) (hkind : r.kind ≠ .raw) :
    r.token = none ∧ Mi.read (String.ofList (behind line)) =
      .ok { r with line := String.ofList (Text.dropReturn (behind line)) } := by
  have htoken : tokenOf (leading line) = none := tokenOf_leading.mpr (.inr hlarge)
  have hnodigits : ∀ c ∈ ([] : List Char), Text.isDigit c = true := fun _ h => nomatch h
  rw [read_eq_ok, String.toList_ofList]
  cases readLine_shows (read_eq_ok.mp h) with
  | classed hclass hsign hrest hread =>
    rw [splitDigits_dropReturn] at hrest hread
    simp only [htoken] at hrest hread
    refine ⟨(structured_record hread).2, ?_⟩
    rw [hrest]
    exact (readLine_classed hnodigits hclass hsign).trans (structured_line hread)
  | streamed hstream hsign hrest _ hread =>
    rw [splitDigits_dropReturn] at hrest
    simp only at hrest
    refine ⟨(streamed_record hread).2, ?_⟩
    rw [hrest]
    exact (readLine_streamed hnodigits hstream hsign).trans (streamed_line hread)
  | prompt htrim =>
    rw [leading_of_prompt htrim] at hlarge
    exact absurd hlarge (by decide)
  | raw => exact absurd rfl hkind

/-! ## Which lines keep their digits -/

theorem keepsDigits_of_fits {line : String} (h : ∀ r, Mi.read line = .ok r → r.kind ≠ .raw →
    Integer.ofDigits (leading line) < Nat.pow 2 64) : KeepsDigits line where
  token r hread hclass hne := by
    have hfits := h r hread (by intro hraw; rw [hraw] at hclass; exact absurd hclass (by decide))
    cases readLine_shows (read_eq_ok.mp hread) with
    | classed _ _ _ hrecord =>
      rw [splitDigits_dropReturn] at hrecord
      rw [(structured_record hrecord).2]
      exact (tokenOf_eq_some (leading_digits line)).mpr ⟨hne, leading_digits line, rfl, hfits⟩
    | streamed hstream _ _ _ hrecord =>
      rw [(streamed_record hrecord).1] at hclass
      exact absurd hstream (not_streamKinds hclass)
    | prompt | raw => exact absurd hclass (by simp [Record.prompt, Record.raw, classKinds])
  stream r hread hstream := by
    have hfits := h r hread (by intro hraw; rw [hraw] at hstream; exact absurd hstream (by decide))
    cases readLine_shows (read_eq_ok.mp hread) with
    | classed hclass _ _ hrecord =>
      rw [(structured_record hrecord).1] at hstream
      exact absurd hstream (not_streamKinds hclass)
    | streamed _ hsign hrest htoken hrecord =>
      rw [splitDigits_dropReturn] at hrest htoken
      have hnone : leading line = [] := by
        rcases tokenOf_leading.mp htoken with hnone | hlarge
        · exact hnone
        · omega
      have hbehind : behind line = line.toList := by
        rw [← leading_behind line, hnone, List.nil_append]
      rw [(streamed_record hrecord).1, hsign, ← hbehind]
      exact ⟨head_behind hrest, hnone⟩
    | prompt | raw => exact absurd hstream (by simp [Record.prompt, Record.raw, streamKinds])
  other hne hclasses := by
    cases hread : Mi.read line with
    | error fault => exact .inr ⟨fault, rfl⟩
    | ok r =>
      cases readLine_shows (read_eq_ok.mp hread) with
      | classed hclass hsign hrest _ =>
        rw [splitDigits_dropReturn] at hrest
        exact absurd ((head_behind hrest).trans hsign.symm) (hclasses _ hclass)
      | streamed hstream _ _ htoken hrecord =>
        rw [splitDigits_dropReturn] at htoken
        have hkind : r.kind ≠ .raw := by
          rw [(streamed_record hrecord).1]
          rintro rfl
          exact absurd hstream (by decide)
        have hfits := h r hread hkind
        rcases tokenOf_leading.mp htoken with hnone | hlarge
        · exact absurd hnone hne
        · omega
      | prompt htrim => exact absurd (leading_of_prompt htrim) hne
      | raw => exact .inl rfl

theorem KeepsDigits.fits {line : String} (h : KeepsDigits line) {r : Record}
    (hread : Mi.read line = .ok r) (hkind : r.kind ≠ .raw) :
    Integer.ofDigits (leading line) < Nat.pow 2 64 := by
  refine Nat.lt_of_not_le fun hlarge => ?_
  have hne : leading line ≠ [] := by
    intro hnone
    rw [hnone] at hlarge
    exact absurd hlarge (by decide)
  cases readLine_shows (read_eq_ok.mp hread) with
  | classed hclass _ _ hrecord =>
    obtain ⟨hsame, -⟩ := structured_record hrecord
    have htoken := h.token r hread (hsame ▸ hclass) hne
    rw [(read_behind hlarge hread hkind).1] at htoken
    cases htoken
  | streamed hstream _ _ _ hrecord =>
    obtain ⟨hsame, -⟩ := streamed_record hrecord
    exact hne (h.stream r hread (hsame ▸ hstream)).2
  | prompt htrim => exact hne (leading_of_prompt htrim)
  | raw => exact hkind rfl

/-- A line keeps its digits exactly if it has no structure, is at fault, or has a number of at
most 64 bits in front.  A larger number is passed over: the line is read as what stands
behind it, without a token. -/
theorem keepsDigits_iff (line : String) :
    (KeepsDigits line ↔ ∀ r, Mi.read line = .ok r → r.kind ≠ .raw →
      Integer.ofDigits (leading line) < Nat.pow 2 64) ∧
    (Nat.pow 2 64 ≤ Integer.ofDigits (leading line) → ∀ r, Mi.read line = .ok r → r.kind ≠ .raw →
      r.token = none ∧ Mi.read (String.ofList (behind line)) =
        .ok { r with line := String.ofList (Text.dropReturn (behind line)) }) :=
  ⟨⟨fun h _ hread hkind => h.fits hread hkind, keepsDigits_of_fits⟩,
    fun hlarge _ hread hkind => read_behind hlarge hread hkind⟩

/-- A number of 65 bits in front of a stream, and in front of a result.  The first line is read
as a stream all the same, the second as a result without a token. -/
theorem large_number_lost :
    Mi.read "18446744073709551616~\"x\"" =
      .ok (.stream "18446744073709551616~\"x\"" .console "x") ∧
    Mi.read "18446744073709551616^done" =
      .ok { Record.raw "18446744073709551616^done" with
        kind := .result, className := "done", text := none } ∧
    ¬KeepsDigits "18446744073709551616~\"x\"" ∧ ¬KeepsDigits "18446744073709551616^done" := by
  have hstream : Mi.read "18446744073709551616~\"x\"" =
      .ok (.stream "18446744073709551616~\"x\"" .console "x") := by decide +kernel
  have hresult : Mi.read "18446744073709551616^done" =
      .ok { Record.raw "18446744073709551616^done" with
        kind := .result, className := "done", text := none } := by decide +kernel
  refine ⟨hstream, hresult, fun h => ?_, fun h => ?_⟩
  · exact absurd (h.fits hstream (by decide)) (by decide +kernel)
  · exact absurd (h.fits hresult (by decide)) (by decide +kernel)

end Mi
end CheckScript
