/-
The characters that a word is read from.

A word with nothing wrong in it ends on the line that it begins on: only string literals could
go on behind a newline, and there the newline would have to be escaped, which is reported.
-/
import CheckScript.Proofs.Script.Place

namespace CheckScript
namespace Script

theorem Position.after_line (p : Position) (cs : List Char) :
    (p.after cs).line = p.line + Text.newlines cs := by
  induction cs generalizing p with
  | nil => rfl
  | cons c cs ih =>
    rw [after_cons, ih]
    by_cases hc : c = '\n'
    · subst hc
      rw [next_newline, Text.newlines, Text.newlines, List.count_cons_self, Nat.add_assoc,
        Nat.add_comm 1]
    · rw [next_of_ne hc, Text.newlines_cons_of_ne hc]

theorem Position.next_line {c : Char} (hc : c ≠ '\n') (p : Position) :
    (p.next c).line = p.line := by
  rw [next_of_ne hc]

theorem unescape_ne_newline {c d : Char} (h : unescape c = some d) : c ≠ '\n' := by
  rintro rfl
  exact nomatch h

/-- A literal without unknown escapes is closed on its own line. -/
theorem readString_line {p : Position} {cs : List Char} (hclosed : (readString p cs).closed = true)
    (hclean : (readString p cs).diagnostics = []) : (readString p cs).place.line = p.line := by
  fun_induction readString p cs with
  | case1 | case2 | case4 => cases hclosed
  | case3 => exact Position.next_line (by decide) _
  | case5 p c rest q r e he ih =>
    rw [ih hclosed hclean, Position.next_line (unescape_ne_newline he),
      Position.next_line (by decide)]
  | case6 => cases hclean
  | case7 p c rest hc _ _ _ r ih => rw [ih hclosed hclean, Position.next_line hc]

/-- Characters of a class without the newline stay on the line. -/
theorem takeWhile_line {f : Char → Bool} (hf : f '\n' = false) {c : Char} (hc : c ≠ '\n')
    (p : Position) (cs : List Char) : ((p.next c).after (cs.takeWhile f)).line = p.line := by
  rw [Position.after_line, Text.newlines_takeWhile hf, Position.next_line hc, Nat.add_zero]

theorem doubleWord_ne_newline {c d : Char} {kind : TokenKind} (h : doubleWord c d = some kind) :
    c ≠ '\n' ∧ d ≠ '\n' := by
  unfold doubleWord at h
  split at h <;> first | cases h; decide | exact nomatch h

/-- A word with nothing wrong in it ends on the line that it begins on. -/
theorem stretch_line {p : Position} {c : Char} {cs : List Char} {t : Token}
    (htoken : (stretch p c cs).token = some t) (hclean : (stretch p c cs).diagnostics = []) :
    (stretch p c cs).place.line = p.line := by
  unfold stretch at htoken hclean ⊢
  split at htoken
  · exact nomatch htoken
  · unfold readBlockComment at htoken
    split at htoken <;> exact nomatch htoken
  · unfold readStringWord at htoken hclean ⊢
    simp only at htoken hclean ⊢
    split at htoken
    · rename_i hclosed
      rw [if_pos hclosed] at hclean ⊢
      exact (readString_line hclosed hclean).trans (Position.next_line (by decide) p)
    · exact nomatch htoken
  · split at htoken
    · exact nomatch htoken
    · rename_i hblank
      have hc : c ≠ '\n' := by
        rintro rfl
        exact hblank (by decide)
      rw [if_neg hblank]
      split
      · unfold readNumber
        simp only
        split <;> exact takeWhile_line (by decide) hc p cs
      · split
        · exact takeWhile_line (by decide) hc p cs
        · split
          · rename_i hkind
            obtain ⟨d, hd, hdouble⟩ := Option.bind_eq_some_iff.mp hkind
            obtain ⟨rest, rfl⟩ := List.head?_eq_some_iff.mp hd
            exact (Position.next_line (doubleWord_ne_newline hdouble).2 _).trans
              (Position.next_line hc p)
          · split <;> exact Position.next_line hc p

/-- `word` is the part of the text that is read as `t`, between `before` and `after`. -/
structure Lexeme (text : List Char) (t : Token) (before word after : List Char) : Prop where
  text_eq : before ++ (word ++ after) = text
  place : t.place = Position.start.after before
  read : ∃ c rest, word ++ after = c :: rest ∧
    stretch t.place c rest = ⟨some t, [], t.place.after word, after⟩
  nonempty : word ≠ []
  one_line : '\n' ∉ word

/-- Each word of a text with clean words is read from a stretch of one line. -/
theorem exists_lexeme {text : String} (hclean : (tokenize text).2 = []) {t : Token}
    (ht : t ∈ (tokenize text).1) (hkind : t.kind ≠ .finish) :
    ∃ before word after, Lexeme text.toList t before word after := by
  obtain ⟨c, rest, ⟨before, htext, hplace⟩, htoken, hall⟩ := tokensFrom_word ht hkind
  have hnone : (stretch t.place c rest).diagnostics = [] :=
    List.eq_nil_iff_forall_not_mem.mpr fun d hd => List.not_mem_nil (hclean ▸ hall d hd)
  obtain ⟨word, hword, hafter⟩ := stretch_reaches t.place c rest
  refine ⟨before, word, (stretch t.place c rest).rest, hword.symm ▸ htext, hplace,
    ⟨c, rest, hword, ?_⟩, ?_, ?_⟩
  · rw [← htoken, ← hnone, ← hafter]
  · rintro rfl
    have hlength := (stretch_suffix t.place c rest).length_le
    rw [List.nil_append] at hword
    rw [hword, List.length_cons] at hlength
    omega
  · have hline := stretch_line htoken hnone
    rw [hafter, Position.after_line] at hline
    exact List.count_eq_zero.mp (Nat.add_eq_left.mp hline)

end Script
end CheckScript
