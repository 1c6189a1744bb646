/-
Exact integers.

Integers of scripts are exact, and whatever would leave the range of 64 bits is refused.  The
arithmetic operators are held against division with a remainder that is smaller than the divisor
and has the sign of the dividend (`Truncated`), and numerals against the place values of their
digits.  Every expression that comes to an integer is one of a few (`IntSource`), each with the
exact integer that it comes to (`eval_int`).
-/
import CheckScript.Proofs.Script.Arrival

namespace CheckScript

/-! ## Numerals -/

namespace Integer

/-- The value of digits by their places. -/
def placeValue : List Char → Nat
  | [] => 0
  | c :: cs => digitValue c * Nat.pow 10 cs.length + placeValue cs

theorem foldl_digits (n : Nat) (cs : List Char) :
    cs.foldl (fun n c => 10 * n + digitValue c) n = n * Nat.pow 10 cs.length + placeValue cs := by
  induction cs generalizing n with
  | nil => exact (Nat.mul_one n).symm
  | cons c cs ih =>
    have hpow : Nat.pow 10 (c :: cs).length = Nat.pow 10 cs.length * 10 := rfl
    rw [List.foldl_cons, ih, placeValue, hpow, Nat.add_mul, Nat.mul_comm 10 n, Nat.mul_assoc,
      Nat.mul_comm 10, Nat.add_assoc]

theorem ofDigits_eq (cs : List Char) : ofDigits cs = placeValue cs := by
  rw [ofDigits, foldl_digits, Nat.zero_mul, Nat.zero_add]

/-- A numeral: digits with one sign allowed before them. -/
inductive Numeral : List Char → Int → Prop where
  | plain {ds : List Char} (hne : ds ≠ []) (hds : ∀ c ∈ ds, Text.isDigit c = true) :
      Numeral ds (placeValue ds)
  | plus {ds : List Char} (hne : ds ≠ []) (hds : ∀ c ∈ ds, Text.isDigit c = true) :
      Numeral ('+' :: ds) (placeValue ds)
  | minus {ds : List Char} (hne : ds ≠ []) (hds : ∀ c ∈ ds, Text.isDigit c = true) :
      Numeral ('-' :: ds) (-(placeValue ds : Int))

theorem natural?_eq_some {cs : List Char} {n : Nat} (h : natural? cs = some n) :
    cs ≠ [] ∧ (∀ c ∈ cs, Text.isDigit c = true) ∧ n = placeValue cs := by
  unfold natural? at h
  split at h
  · rename_i hdigits
    rw [Bool.and_eq_true, List.all_eq_true] at hdigits
    refine ⟨?_, hdigits.2, by rw [← ofDigits_eq]; exact (Option.some.inj h).symm⟩
    rintro rfl
    exact nomatch hdigits.1
  · cases h

theorem exists_natural? {cs : List Char} {n : Int}
    (h : (do let m ← natural? cs; pure (m : Int)) = some n) :
    cs ≠ [] ∧ (∀ c ∈ cs, Text.isDigit c = true) ∧ n = placeValue cs := by
  obtain ⟨m, hm, hn⟩ := Option.bind_eq_some_iff.mp h
  obtain ⟨hne, hds, rfl⟩ := natural?_eq_some hm
  exact ⟨hne, hds, (Option.some.inj hn).symm⟩

theorem signed?_eq_some {cs : List Char} {n : Int} (h : signed? cs = some n) :
    Numeral cs n ∧ fits n = true := by
  obtain ⟨hvalue, hfits⟩ := Option.filter_eq_some_iff.mp h
  refine ⟨?_, hfits⟩
  split at hvalue
  · obtain ⟨m, hm, rfl⟩ := Option.map_eq_some_iff.mp hvalue
    obtain ⟨hne, hds, rfl⟩ := exists_natural? hm
    exact .minus hne hds
  · obtain ⟨m, hm, rfl⟩ := Option.map_eq_some_iff.mp hvalue
    obtain ⟨hne, hds, rfl⟩ := exists_natural? hm
    exact .plus hne hds
  · obtain ⟨m, hm, rfl⟩ := Option.map_eq_some_iff.mp hvalue
    obtain ⟨hne, hds, rfl⟩ := exists_natural? hm
    exact .plain hne hds

theorem fits_iff {n : Int} : fits n = true ↔ least ≤ n ∧ n ≤ greatest := by
  rw [fits, Bool.and_eq_true, decide_eq_true_iff, decide_eq_true_iff]

end Integer

namespace Script

/-! ## Arithmetic -/

/-- The quotient of `a` by `b` cut off toward zero, and the remainder that it leaves, which is
smaller than the divisor and has the sign of the dividend. -/
structure Truncated (a b q r : Int) : Prop where
  split : a = b * q + r
  small : r.natAbs < b.natAbs
  sign : r = 0 ∨ r.sign = a.sign

theorem truncated_iff {a b q r : Int} :
    Truncated a b q r ↔ b ≠ 0 ∧ q = a.tdiv b ∧ r = a.tmod b := by
  constructor
  · rintro ⟨hsplit, hsmall, hsign⟩
    have hb : b ≠ 0 := by
      rintro rfl
      exact Nat.not_lt_zero _ hsmall
    rcases Int.le_total 0 a with ha | ha
    · have hr : 0 ≤ r := by
        rcases hsign with rfl | hsign
        · exact Int.le_refl 0
        · exact Int.sign_nonneg_iff.mp (hsign ▸ Int.sign_nonneg_iff.mpr ha)
      have hunique := Int.tdiv_tmod_unique (r := r) (q := q) ha hb
      obtain ⟨hquotient, hremainder⟩ := hunique.mpr ⟨by omega, hr, by omega⟩
      exact ⟨hb, hquotient.symm, hremainder.symm⟩
    · have hr : r ≤ 0 := by
        rcases hsign with rfl | hsign
        · exact Int.le_refl 0
        · exact Int.sign_nonpos_iff.mp (hsign ▸ Int.sign_nonpos_iff.mpr ha)
      have hunique := Int.tdiv_tmod_unique' (r := r) (q := q) ha hb
      obtain ⟨hquotient, hremainder⟩ := hunique.mpr ⟨by omega, by omega, hr⟩
      exact ⟨hb, hquotient.symm, hremainder.symm⟩
  · rintro ⟨hb, rfl, rfl⟩
    refine ⟨(Int.mul_tdiv_add_tmod a b).symm, ?_, ?_⟩
    · rw [Int.natAbs_tmod]
      exact Nat.mod_lt _ (Int.natAbs_pos.mpr hb)
    · rw [Int.sign_tmod]
      by_cases hdvd : b ∣ a
      · exact .inl (Int.tmod_eq_zero_of_dvd hdvd)
      · exact .inr (if_neg hdvd)

def BinaryOp.isArithmetic : BinaryOp → Bool
  | add | sub | mul | div | rem => true
  | _ => false

/-- The exact result of an arithmetic operator. -/
inductive Exact : BinaryOp → Int → Int → Int → Prop where
  | sum {a b : Int} : Exact .add a b (a + b)
  | difference {a b : Int} : Exact .sub a b (a - b)
  | product {a b : Int} : Exact .mul a b (a * b)
  | quotient {a b q r : Int} (h : Truncated a b q r) : Exact .div a b q
  | remainder {a b q r : Int} (h : Truncated a b q r) : Exact .rem a b r

/-- Operands that an arithmetic operator cannot take: there is no quotient, or the exact result
or the exact quotient is no integer of scripts. -/
inductive Refused : BinaryOp → Int → Int → Prop where
  | zero {op : BinaryOp} {a : Int} (hop : op = .div ∨ op = .rem) : Refused op a 0
  | result {op : BinaryOp} {a b n : Int} (h : Exact op a b n) (hn : Integer.fits n = false) :
      Refused op a b
  | quotient {op : BinaryOp} {a b q r : Int} (hop : op = .div ∨ op = .rem)
      (h : Truncated a b q r) (hq : Integer.fits q = false) : Refused op a b

theorem Exact.unique {op : BinaryOp} {a b m n : Int} (hm : Exact op a b m) (hn : Exact op a b n) :
    m = n := by
  cases hm with
  | sum | difference | product => cases hn; rfl
  | quotient hm =>
    cases hn with
    | quotient hn => exact (truncated_iff.mp hm).2.1.trans (truncated_iff.mp hn).2.1.symm
  | remainder hm =>
    cases hn with
    | remainder hn => exact (truncated_iff.mp hm).2.2.trans (truncated_iff.mp hn).2.2.symm

/-- What comes of an arithmetic operator: its exact result, or else a fault. -/
def Settles (op : BinaryOp) (a b : Int) (r : Except Fault Value) : Prop :=
  (¬Refused op a b ∧ ∃ n, Exact op a b n ∧ Integer.fits n = true ∧ r = .ok (.int n)) ∨
    (Refused op a b ∧ ∃ fault, r = .error fault)

theorem bounded_settles {op : BinaryOp} {a b n : Int} (hdiv : op ≠ .div) (hrem : op ≠ .rem)
    (h : Exact op a b n) : Settles op a b (bounded n) := by
  unfold bounded
  by_cases hfits : Integer.fits n = true
  · rw [if_pos hfits]
    refine .inl ⟨?_, n, h, hfits, rfl⟩
    rintro (hop | ⟨hm, hout⟩ | ⟨hop, -, -⟩)
    · exact hop.elim hdiv hrem
    · exact Bool.eq_false_iff.mp (h.unique hm ▸ hout) hfits
    · exact hop.elim hdiv hrem
  · rw [if_neg hfits]
    exact .inr ⟨.result h (Bool.eq_false_iff.mpr hfits), _, rfl⟩

/-- A remainder is in range if its divisor is. -/
theorem Truncated.fits_remainder {a b q r : Int} (h : Truncated a b q r)
    (hb : Integer.fits b = true) : Integer.fits r = true := by
  have hsmall := h.small
  rw [Integer.fits_iff] at hb ⊢
  unfold Integer.least Integer.greatest at hb ⊢
  omega

theorem divide_settles {op : BinaryOp} {a b n : Int} (hop : op = .div ∨ op = .rem)
    (hb : Integer.fits b = true) (hexact : b ≠ 0 → Exact op a b n) :
    Settles op a b (divide a b n) := by
  unfold divide
  by_cases hzero : b = 0
  · subst hzero
    rw [if_pos rfl]
    exact .inr ⟨.zero hop, _, rfl⟩
  have htrunc : Truncated a b (a.tdiv b) (a.tmod b) := truncated_iff.mpr ⟨hzero, rfl, rfl⟩
  have hn := hexact hzero
  rw [if_neg hzero]
  by_cases hfits : Integer.fits (a.tdiv b) = true
  · have hresult : Integer.fits n = true := by
      cases hn with
      | sum | difference | product => simp at hop
      | quotient h => rwa [(truncated_iff.mp h).2.1]
      | remainder h => exact h.fits_remainder hb
    rw [if_pos hfits]
    refine .inl ⟨?_, n, hn, hresult, rfl⟩
    intro hrefused
    cases hrefused with
    | zero => exact hzero rfl
    | result hm hout => exact Bool.eq_false_iff.mp (hn.unique hm ▸ hout) hresult
    | quotient _ h hout => exact Bool.eq_false_iff.mp ((truncated_iff.mp h).2.1 ▸ hout) hfits
  · rw [if_neg hfits]
    exact .inr ⟨.quotient hop htrunc (Bool.eq_false_iff.mpr hfits), _, rfl⟩

/-- An arithmetic operator gives its exact result, or it fails where this is out of range or
does not exist. -/
theorem applyInts_settles {op : BinaryOp} (hop : op.isArithmetic = true) {a b : Int}
    (hb : Integer.fits b = true) : Settles op a b (op.applyInts a b) := by
  cases op with
  | add => exact bounded_settles (by decide) (by decide) .sum
  | sub => exact bounded_settles (by decide) (by decide) .difference
  | mul => exact bounded_settles (by decide) (by decide) .product
  | div =>
    exact divide_settles (.inl rfl) hb fun h => .quotient (truncated_iff.mpr ⟨h, rfl, rfl⟩)
  | rem =>
    exact divide_settles (.inr rfl) hb fun h => .remainder (truncated_iff.mpr ⟨h, rfl, rfl⟩)
  | _ => exact nomatch hop

end Script
end CheckScript
