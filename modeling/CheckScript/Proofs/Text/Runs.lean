/-
Runs of characters.

A reader that goes on as long as the characters are of its class reads a run of them and stops
where the run ends.  The decimal digits of a number are such a run, and read back as the number
that they were written for.
-/
import CheckScript.Integer
import CheckScript.Text.Blank

namespace CheckScript
namespace Text

variable {p : Char → Bool} {c : Char} {cs rest : List Char}

/-- No run of such characters goes on behind this place. -/
def Ends (p : Char → Bool) (rest : List Char) : Prop := ∀ c, rest.head? = some c → p c = false

theorem ends_nil (p : Char → Bool) : Ends p [] := nofun

theorem ends_cons (h : p c = false) : Ends p (c :: cs) := by
  intro d hd
  obtain rfl := Option.some.inj hd
  exact h

theorem ends_dropWhile (p : Char → Bool) (cs : List Char) : Ends p (cs.dropWhile p) := by
  intro c hc
  have hnot := List.head?_dropWhile_not p cs
  rw [hc] at hnot
  exact hnot

theorem Ends.append (hcs : Ends p cs) (hrest : Ends p rest) : Ends p (cs ++ rest) := by
  cases cs with
  | nil => exact hrest
  | cons => exact hcs

theorem takeWhile_run (hcs : ∀ c ∈ cs, p c = true) (hrest : Ends p rest) :
    (cs ++ rest).takeWhile p = cs := by
  rw [List.takeWhile_append_of_pos hcs]
  cases rest with
  | nil => rw [List.takeWhile_nil, List.append_nil]
  | cons c rest => rw [List.takeWhile_cons, hrest c rfl, if_neg Bool.false_ne_true, List.append_nil]

theorem dropWhile_run (hcs : ∀ c ∈ cs, p c = true) (hrest : Ends p rest) :
    (cs ++ rest).dropWhile p = rest := by
  rw [List.dropWhile_append_of_pos hcs]
  cases rest with
  | nil => rfl
  | cons c rest => rw [List.dropWhile_cons, hrest c rfl, if_neg Bool.false_ne_true]

theorem dropWhile_ends (hrest : Ends p rest) : rest.dropWhile p = rest := by
  show ([] ++ rest).dropWhile p = rest
  exact dropWhile_run (fun _ hc => absurd hc List.not_mem_nil) hrest

/-- A name or a number: one character that begins it, and those that go on with it. -/
def IsRun (first more : Char → Bool) (cs : List Char) : Prop :=
  ∃ c tail, cs = c :: tail ∧ first c = true ∧ ∀ d ∈ tail, more d = true

theorem isDigit_of_isNameStart (h : isNameStart c = true) : isDigit c = false := by
  cases hdigit : isDigit c with
  | false => rfl
  | true =>
    simp only [isDigit, Bool.and_eq_true, decide_eq_true_eq, Char.le_def,
      UInt32.le_iff_toNat_le] at hdigit
    have hval : 48 ≤ c.toNat ∧ c.toNat ≤ 57 := hdigit
    have hascii : isAscii c = true := decide_eq_true (by omega)
    have hunderscore : c ≠ '_' := by
      rintro rfl
      exact absurd hval.2 (by decide)
    simp only [isNameStart, isLetter, hascii, if_true, isAsciiLetter,
      Bool.or_eq_true, Bool.and_eq_true, decide_eq_true_eq, Char.le_def, UInt32.le_iff_toNat_le,
      beq_iff_eq, hunderscore, or_false] at h
    have hletter : 97 ≤ c.toNat ∧ c.toNat ≤ 122 ∨ 65 ≤ c.toNat ∧ c.toNat ≤ 90 := h
    omega

theorem isBlank_of_isDigit (h : isDigit c = true) : isBlank c = false := by
  simp only [isDigit, Char.le_def, UInt32.le_iff_toNat_le, Bool.and_eq_true,
    decide_eq_true_eq] at h
  have hval : 48 ≤ c.toNat ∧ c.toNat ≤ 57 := h
  simp [isBlank]
  omega

/-- Text without blanks has none around it. -/
theorem trimChars_of_unblank (h : ∀ c ∈ cs, isBlank c = false) : trimChars cs = cs := by
  have hstart : Ends isBlank cs := fun c hc => h c (List.mem_of_head? hc)
  have hend : Ends isBlank cs.reverse := fun c hc =>
    h c (List.mem_reverse.mp (List.mem_of_head? hc))
  rw [trimChars, trimStart, dropWhile_ends hstart, trimEnd, dropWhile_ends hend,
    List.reverse_reverse]

end Text

/-! ## Decimal digits -/

namespace Integer

theorem ofDigits_toDigits (n : Nat) : ofDigits (Nat.toDigits 10 n) = n :=
  Nat.ofDigitChars_ten_toDigits

theorem isDigit_of_mem_toDigits {n : Nat} {c : Char} (h : c ∈ Nat.toDigits 10 n) :
    Text.isDigit c = true := by
  have hdigit := Nat.isDigit_of_mem_toDigits (by decide) (by decide) h
  simpa [Char.isDigit, Text.isDigit, Char.le_def] using hdigit

theorem natural?_toDigits (n : Nat) : natural? (Nat.toDigits 10 n) = some n := by
  have hall : (Nat.toDigits 10 n).all Text.isDigit = true :=
    List.all_eq_true.mpr fun _ => isDigit_of_mem_toDigits
  have hne : (!(Nat.toDigits 10 n).isEmpty) = true := by
    simp [Nat.toDigits_ne_nil]
  unfold natural?
  rw [hne, hall, Bool.and_true, if_pos rfl, ofDigits_toDigits]

theorem word?_toDigits {bits n : Nat} (h : n < Nat.pow 2 bits) :
    word? bits (Nat.toDigits 10 n) = some n := by
  have hplus : '+' ∉ Nat.toDigits 10 n := fun hmem =>
    Bool.noConfusion (isDigit_of_mem_toDigits hmem)
  unfold word?
  split
  · rename_i hdigits
    exact absurd (hdigits ▸ List.mem_cons_self) hplus
  · simp only [natural?_toDigits, Option.filter_some, decide_eq_true h, if_true]

end Integer

end CheckScript
