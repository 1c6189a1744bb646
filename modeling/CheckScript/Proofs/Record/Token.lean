/-
Tokens and the digits that spell them.

Zeros may stand in front, and digits that spell a number of more than 64 bits are no token.
-/
import CheckScript.Record.Mi

namespace CheckScript
namespace Mi

/-- Digits that spell the token `t`. -/
structure Spells (digits : List Char) (t : Nat) : Prop where
  nonempty : digits ≠ []
  all_digits : ∀ c ∈ digits, Text.isDigit c = true
  value : Integer.ofDigits digits = t
  fits : t < Nat.pow 2 64

/-- Digits are all that is read of a text up to the first character that is none. -/
theorem splitDigits_append {digits rest : List Char}
    (hdigits : ∀ c ∈ digits, Text.isDigit c = true)
    (hrest : ∀ c, rest.head? = some c → Text.isDigit c = false) :
    splitDigits (digits ++ rest) = (digits, rest) := by
  have hnone : rest.takeWhile Text.isDigit = [] ∧ rest.dropWhile Text.isDigit = rest := by
    cases rest with
    | nil => exact ⟨rfl, rfl⟩
    | cons c rest =>
      have hc : ¬Text.isDigit c = true := by simp [hrest c rfl]
      exact ⟨List.takeWhile_cons_of_neg hc, List.dropWhile_cons_of_neg hc⟩
  unfold splitDigits
  rw [List.takeWhile_append_of_pos hdigits, List.dropWhile_append_of_pos hdigits, hnone.1,
    hnone.2, List.append_nil]

theorem splitDigits_join (cs : List Char) : (splitDigits cs).1 ++ (splitDigits cs).2 = cs :=
  List.takeWhile_append_dropWhile

theorem splitDigits_digits (cs : List Char) :
    ∀ c ∈ (splitDigits cs).1, Text.isDigit c = true :=
  List.all_eq_true.mp List.all_takeWhile

theorem splitDigits_rest (cs : List Char) :
    ∀ c, (splitDigits cs).2.head? = some c → Text.isDigit c = false := by
  intro c hc
  have hhead := List.head?_dropWhile_not Text.isDigit cs
  have hdrop : (cs.dropWhile Text.isDigit).head? = some c := hc
  rw [hdrop] at hhead
  simpa using hhead

/-- A run of digits is read as the token that it spells. -/
theorem tokenOf_eq_some {digits : List Char} (hdigits : ∀ c ∈ digits, Text.isDigit c = true)
    {t : Nat} : tokenOf digits = some t ↔ Spells digits t := by
  have hall : digits.all Text.isDigit = true := List.all_eq_true.mpr hdigits
  have hplain : tokenOf digits = (Integer.natural? digits).filter (· < Nat.pow 2 64) := by
    unfold tokenOf Integer.word?
    split
    · exact absurd (hdigits '+' List.mem_cons_self) (by decide)
    · rfl
  rw [hplain, Option.filter_eq_some_iff]
  unfold Integer.natural?
  constructor
  · rintro ⟨hnatural, hfits⟩
    split at hnatural
    · rename_i hnonempty
      obtain rfl := Option.some.inj hnatural
      refine ⟨fun hnil => ?_, hdigits, rfl, of_decide_eq_true hfits⟩
      subst hnil
      exact absurd hnonempty (by decide)
    · cases hnatural
  · intro h
    have hempty : (!digits.isEmpty) = true := by simp [h.nonempty]
    rw [hempty, hall, Bool.and_true, if_pos rfl, h.value]
    exact ⟨rfl, decide_eq_true h.fits⟩

end Mi
end CheckScript
