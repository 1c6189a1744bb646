/-
Texts as sequences of pieces.

`Text.cut` gives all pieces between the separators at once.  Joining two texts
joins only the last piece of the first to the first piece of the second, and that
is awkward to say about lists of pieces.  `Text.piece` looks at one piece by its
number, so that the law of joining, `piece_append`, is a sum: piece `i` of `a ++ b`
is piece `i` of `a` followed by piece `i - n` of `b`, where `n` counts the
separators of `a`.
-/
import CheckScript.Text.Lines

namespace CheckScript
namespace Text

/-! ## Newlines -/

theorem newlines_append (a b : List Char) : newlines (a ++ b) = newlines a + newlines b :=
  List.count_append ..

theorem newlines_cons_of_ne {c : Char} (h : c ≠ '\n') (cs : List Char) :
    newlines (c :: cs) = newlines cs :=
  List.count_cons_of_ne h

theorem newlines_eq_zero {cs : List Char} (h : '\n' ∉ cs) : newlines cs = 0 :=
  List.count_eq_zero.mpr h

theorem newlines_replicate (n : Nat) : newlines (List.replicate n '\n') = n :=
  List.count_replicate_self

/-- A class of characters without the newline takes no newline along. -/
theorem newlines_takeWhile {p : Char → Bool} (h : p '\n' = false) (cs : List Char) :
    newlines (cs.takeWhile p) = 0 := by
  refine newlines_eq_zero (fun hmem => ?_)
  have hp : p '\n' = true := List.all_eq_true.mp List.all_takeWhile _ hmem
  rw [h] at hp
  exact Bool.false_ne_true hp

/-- The carriage return that ends a line is set apart from the line. -/
theorem dropReturn_append (cs : List Char) :
    ∃ gap, dropReturn cs ++ gap = cs ∧ '\n' ∉ gap := by
  by_cases h : cs.getLast? = some '\r'
  · obtain ⟨front, rfl⟩ := List.getLast?_eq_some_iff.mp h
    refine ⟨['\r'], ?_, by decide⟩
    rw [dropReturn, if_pos h, List.dropLast_concat]
  · refine ⟨[], ?_, List.not_mem_nil⟩
    rw [dropReturn, if_neg h, List.append_nil]

theorem dropReturn_cons {c : Char} (hc : c ≠ '\r') (cs : List Char) :
    dropReturn (c :: cs) = c :: dropReturn cs := by
  cases cs with
  | nil => simp [dropReturn, hc]
  | cons d ds =>
    have hlast : (c :: d :: ds).getLast? = (d :: ds).getLast? := List.getLast?_cons_cons
    unfold dropReturn
    rw [hlast]
    split <;> rfl

/-! ## Pieces by number -/

/-- Piece number `i` of `cs`, counted from 0, and nothing behind the last. -/
def piece (sep : Char) (cs : List Char) (i : Nat) : List Char := ((cut sep cs)[i]?).getD []

theorem cut_ne_nil (sep : Char) (cs : List Char) : cut sep cs ≠ [] := by
  cases cs with
  | nil => exact List.cons_ne_nil _ _
  | cons c cs =>
    unfold cut
    split
    · exact List.cons_ne_nil _ _
    · split <;> exact List.cons_ne_nil _ _

theorem cut_sep (sep : Char) (cs : List Char) : cut sep (sep :: cs) = [] :: cut sep cs := by
  rw [cut, if_pos rfl]

theorem cut_cons {sep c : Char} (h : c ≠ sep) (cs : List Char) :
    ∃ p ps, cut sep cs = p :: ps ∧ cut sep (c :: cs) = (c :: p) :: ps := by
  obtain ⟨p, ps, hcut⟩ := List.exists_cons_of_ne_nil (cut_ne_nil sep cs)
  refine ⟨p, ps, hcut, ?_⟩
  rw [cut, if_neg h, hcut]

theorem cut_of_not_mem {sep : Char} {cs : List Char} (h : sep ∉ cs) : cut sep cs = [cs] := by
  induction cs with
  | nil => rfl
  | cons c cs ih =>
    obtain ⟨hc, hcs⟩ := List.ne_and_not_mem_of_not_mem_cons h
    rw [cut, if_neg hc.symm, ih hcs]

/-- A separator ends one text and begins the next: no piece goes across it. -/
theorem cut_append_cons (sep : Char) (a b : List Char) :
    cut sep (a ++ sep :: b) = cut sep a ++ cut sep b := by
  induction a with
  | nil => exact cut_sep sep b
  | cons c a ih =>
    rw [List.cons_append]
    by_cases h : c = sep
    · subst h
      rw [cut_sep, cut_sep, ih, List.cons_append]
    · obtain ⟨p, ps, hcut, hcons⟩ := cut_cons h a
      rw [hcons, cut, if_neg h, ih, hcut]
      rfl

theorem cut_append_sep {sep : Char} {a : List Char} (h : sep ∉ a) (b : List Char) :
    cut sep (a ++ sep :: b) = a :: cut sep b := by
  rw [cut_append_cons, cut_of_not_mem h]
  rfl

theorem not_mem_of_mem_cut {sep : Char} {cs p : List Char} (h : p ∈ cut sep cs) : sep ∉ p := by
  induction cs generalizing p with
  | nil =>
    rw [List.mem_singleton.mp h]
    exact List.not_mem_nil
  | cons c cs ih =>
    by_cases hc : c = sep
    · subst hc
      rw [cut_sep] at h
      rcases List.mem_cons.mp h with rfl | hmem
      · exact List.not_mem_nil
      · exact ih hmem
    · obtain ⟨q, qs, hcut, hcons⟩ := cut_cons hc cs
      rw [hcut] at ih
      rw [hcons] at h
      rcases List.mem_cons.mp h with rfl | hmem
      · exact List.not_mem_cons_of_ne_of_not_mem (Ne.symm hc) (ih List.mem_cons_self)
      · exact ih (List.mem_cons_of_mem q hmem)

theorem cut_length (sep : Char) (cs : List Char) : (cut sep cs).length = cs.count sep + 1 := by
  induction cs with
  | nil => rfl
  | cons c cs ih =>
    by_cases h : c = sep
    · subst h
      rw [cut_sep, List.length_cons, ih, List.count_cons_self]
    · obtain ⟨p, ps, hcut, hcons⟩ := cut_cons h cs
      rw [hcons, List.length_cons, List.count_cons_of_ne h, ← ih, hcut, List.length_cons]

/-- Each line takes a character of the text. -/
theorem lineChars_length_le (cs : List Char) : (lineChars cs).length ≤ cs.length := by
  unfold lineChars
  induction cs with
  | nil => exact Nat.le_refl 0
  | cons c cs ih =>
    obtain ⟨p, ps, hcut⟩ := List.exists_cons_of_ne_nil (cut_ne_nil '\n' cs)
    rw [hcut] at ih
    by_cases hc : c = '\n'
    · subst hc
      rw [cut_sep, hcut, endLines, List.length_cons, List.length_cons]
      exact Nat.succ_le_succ ih
    · have hhead : cut '\n' (c :: cs) = (c :: p) :: ps := by
        rw [cut, if_neg hc, hcut]
      rw [hhead]
      cases ps with
      | nil => exact Nat.succ_le_succ (Nat.zero_le _)
      | cons q ps => exact Nat.le_succ_of_le ih

theorem piece_nil (sep : Char) (i : Nat) : piece sep [] i = [] := by
  cases i <;> rfl

theorem piece_sep_zero (sep : Char) (cs : List Char) : piece sep (sep :: cs) 0 = [] := by
  rw [piece, cut_sep]
  rfl

theorem piece_sep_succ (sep : Char) (cs : List Char) (i : Nat) :
    piece sep (sep :: cs) (i + 1) = piece sep cs i := by
  rw [piece, cut_sep]
  rfl

theorem piece_cons_zero {sep c : Char} (h : c ≠ sep) (cs : List Char) :
    piece sep (c :: cs) 0 = c :: piece sep cs 0 := by
  obtain ⟨p, ps, hcut, hcons⟩ := cut_cons h cs
  rw [piece, piece, hcut, hcons]
  rfl

theorem piece_cons_succ {sep c : Char} (h : c ≠ sep) (cs : List Char) (i : Nat) :
    piece sep (c :: cs) (i + 1) = piece sep cs (i + 1) := by
  obtain ⟨p, ps, hcut, hcons⟩ := cut_cons h cs
  rw [piece, piece, hcut, hcons]
  rfl

/-- Pieces of a joined text.  The last piece of the first part and the first piece of
the second become one. -/
theorem piece_append (sep : Char) (a b : List Char) (i : Nat) :
    piece sep (a ++ b) i =
      piece sep a i ++ if a.count sep ≤ i then piece sep b (i - a.count sep) else [] := by
  induction a generalizing i with
  | nil => simp [piece_nil]
  | cons c a ih =>
    by_cases h : c = sep
    · subst h
      rw [List.cons_append, List.count_cons_self]
      cases i with
      | zero => simp [piece_sep_zero]
      | succ i =>
        rw [piece_sep_succ, piece_sep_succ, ih]
        simp only [Nat.add_le_add_iff_right, Nat.add_sub_add_right]
    · rw [List.cons_append, List.count_cons_of_ne h]
      cases i with
      | zero => rw [piece_cons_zero h, piece_cons_zero h, ih, List.cons_append]
      | succ i => rw [piece_cons_succ h, piece_cons_succ h, ih]

/-- Separators in front push every piece back and leave empty ones behind. -/
theorem piece_replicate_append (sep : Char) (n : Nat) (cs : List Char) (i : Nat) :
    piece sep (List.replicate n sep ++ cs) i = if n ≤ i then piece sep cs (i - n) else [] := by
  induction n generalizing i with
  | zero => simp
  | succ n ih =>
    rw [List.replicate_succ, List.cons_append]
    cases i with
    | zero => simp [piece_sep_zero]
    | succ i =>
      rw [piece_sep_succ, ih]
      simp only [Nat.add_le_add_iff_right, Nat.add_sub_add_right]

/-! ## Joined texts -/

theorem joinWith_toList (first : String) (texts : List String) :
    (joinWith "," (first :: texts)).toList =
      first.toList ++ texts.flatMap fun text => ',' :: text.toList := by
  rw [joinWith, String.toList_intercalate, List.map_cons]
  induction texts generalizing first with
  | nil => rw [List.map_nil, List.intercalate_singleton, List.flatMap_nil, List.append_nil]
  | cons text texts ih =>
    rw [List.map_cons, List.intercalate_cons_of_ne_nil (List.cons_ne_nil _ _), ih,
      List.flatMap_cons, List.append_assoc]
    rfl

end Text
end CheckScript
