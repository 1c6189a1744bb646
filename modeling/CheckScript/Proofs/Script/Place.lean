/-
Places of a text.

The readers of words count lines and columns as they go, each in its own way.  `Reaches`
says that a reader has counted right: the place behind what it read is the place before it,
moved on by every character that it read.  From the start of a text that gives real places,
as `start_after` spells out: one line more than there are newlines before, one column more
than there are characters on the line before.

There is one exception.  An unknown escape is reported one column before the place behind it,
and if what was escaped is a newline that column is 0.
-/
import CheckScript.Proofs.Text.Lines
import CheckScript.Script.Tokenize
import Mathlib.Data.List.Induction

namespace CheckScript
namespace Script
namespace Position

theorem after_nil (p : Position) : p.after [] = p := rfl

theorem after_cons (p : Position) (c : Char) (cs : List Char) :
    p.after (c :: cs) = (p.next c).after cs := rfl

theorem after_append (p : Position) (a b : List Char) : p.after (a ++ b) = (p.after a).after b :=
  List.foldl_append ..

theorem next_newline (p : Position) : p.next '\n' = ⟨p.line + 1, 1⟩ := if_pos rfl

theorem next_of_ne {c : Char} (h : c ≠ '\n') (p : Position) :
    p.next c = ⟨p.line, p.column + 1⟩ := if_neg h

/-- Lines are counted by newlines, columns by the characters behind the last one. -/
theorem start_after (cs : List Char) :
    start.after cs =
      ⟨Text.newlines cs + 1, (Text.piece '\n' cs (Text.newlines cs)).length + 1⟩ := by
  induction cs using List.reverseRecOn with
  | nil => rfl
  | append_singleton cs c ih =>
    rw [after_append, ih, after_cons, after_nil, Text.newlines_append, Text.piece_append]
    have hcount : cs.count '\n' = Text.newlines cs := rfl
    rw [hcount, if_pos (Nat.le_add_right ..), Nat.add_sub_cancel_left]
    by_cases hc : c = '\n'
    · subst hc
      have hone : Text.newlines ['\n'] = 1 := rfl
      have hbehind : Text.piece '\n' cs (Text.newlines cs + 1) = [] := by
        rw [Text.piece, List.getElem?_eq_none (by rw [Text.cut_length]; exact Nat.le_refl _)]
        rfl
      rw [hone, hbehind, next_newline]
      rfl
    · have hnone : Text.newlines [c] = 0 := by
        rw [Text.newlines_cons_of_ne hc]
        rfl
      rw [hnone, Nat.add_zero, next_of_ne hc, Text.piece_cons_zero hc, Text.piece_nil,
        List.length_append]
      rfl

/-- On a line of the text, before one of its characters or behind the last of them. -/
def In (p : Position) (cs : List Char) : Prop :=
  (1 ≤ p.line ∧ p.line ≤ (Text.cut '\n' cs).length) ∧
    1 ≤ p.column ∧ p.column ≤ (Text.piece '\n' cs (p.line - 1)).length + 1

/-- The place behind any part of a text is in the text. -/
theorem start_after_in (before after : List Char) : (start.after before).In (before ++ after) := by
  have hboth : (before ++ after).count '\n' = Text.newlines before + after.count '\n' :=
    List.count_append ..
  rw [start_after, In, Text.cut_length, hboth]
  simp only [Nat.add_sub_cancel, Text.piece_append, List.length_append]
  omega

/-- A line of the text begins in the text. -/
theorem In.line_start {p : Position} {cs : List Char} (h : p.In cs) : In ⟨p.line, 1⟩ cs :=
  ⟨h.1, Nat.le_refl 1, Nat.le_add_left ..⟩

end Position

/-- Reading from `cs`, which begins at `p`, leads to `rest`, which begins at `q`. -/
def Reaches (p : Position) (cs : List Char) (q : Position) (rest : List Char) : Prop :=
  ∃ used, used ++ rest = cs ∧ q = p.after used

namespace Reaches

variable {p q r : Position} {cs ds es : List Char}

theorem refl (p : Position) (cs : List Char) : Reaches p cs p cs := ⟨[], rfl, rfl⟩

theorem trans (h : Reaches p cs q ds) (h' : Reaches q ds r es) : Reaches p cs r es := by
  obtain ⟨used, rfl, rfl⟩ := h
  obtain ⟨used', rfl, rfl⟩ := h'
  exact ⟨used ++ used', List.append_assoc .., (Position.after_append ..).symm⟩

theorem next (p : Position) (c : Char) (cs : List Char) : Reaches p (c :: cs) (p.next c) cs :=
  ⟨[c], rfl, rfl⟩

/-- One character and then what follows it. -/
theorem cons {c : Char} (h : Reaches (p.next c) cs q ds) : Reaches p (c :: cs) q ds :=
  (next p c cs).trans h

theorem takeWhile (f : Char → Bool) (p : Position) (cs : List Char) :
    Reaches p cs (p.after (cs.takeWhile f)) (cs.dropWhile f) :=
  ⟨cs.takeWhile f, List.takeWhile_append_dropWhile, rfl⟩

theorem take (n : Nat) (p : Position) (cs : List Char) :
    Reaches p cs (p.after (cs.take n)) (cs.drop n) :=
  ⟨cs.take n, List.take_append_drop n cs, rfl⟩

theorem place_in (h : Reaches .start cs q ds) : q.In cs := by
  obtain ⟨used, rfl, rfl⟩ := h
  exact Position.start_after_in used ds

end Reaches

/-! ## Readers -/

theorem skipLine_reaches (p : Position) (cs : List Char) :
    Reaches p cs (skipLine p cs).1 (skipLine p cs).2 := by
  induction cs generalizing p with
  | nil => exact .refl p []
  | cons c rest ih =>
    unfold skipLine
    split
    · exact .refl p _
    · exact .cons (ih _)

theorem skipComment_reaches (p : Position) (cs : List Char) :
    Reaches p cs (skipComment p cs).2.1 (skipComment p cs).2.2 := by
  fun_induction skipComment p cs with
  | case1 => exact .refl _ _
  | case2 => exact .cons (.next _ _ _)
  | case3 _ _ _ _ ih => exact .cons ih

theorem readString_reaches (p : Position) (cs : List Char) :
    Reaches p cs (readString p cs).place (readString p cs).rest := by
  fun_induction readString p cs with
  | case1 | case2 => exact .refl _ _
  | case3 | case4 => exact .next _ _ _
  | case5 _ _ _ _ _ _ _ ih | case6 _ _ _ _ _ _ ih => exact .cons (.cons ih)
  | case7 _ _ _ _ _ _ _ _ ih => exact .cons ih

theorem readBlockComment_reaches (p : Position) (cs : List Char) :
    Reaches p ('/' :: '*' :: cs) (readBlockComment p cs).place (readBlockComment p cs).rest := by
  have h := skipComment_reaches ((p.next '/').next '*') cs
  unfold readBlockComment
  split <;> rename_i hskip <;> rw [hskip] at h <;> exact .cons (.cons h)

theorem readStringWord_reaches (p : Position) (cs : List Char) :
    Reaches p ('"' :: cs) (readStringWord p cs).place (readStringWord p cs).rest := by
  have h := readString_reaches (p.next '"') cs
  unfold readStringWord
  simp only
  split <;> exact .cons h

theorem readNumber_reaches (p : Position) (c : Char) (cs : List Char) :
    Reaches p (c :: cs) (readNumber p c cs).place (readNumber p c cs).rest := by
  have h := Reaches.takeWhile isDigitOrGap (p.next c) cs
  unfold readNumber
  simp only
  split <;> exact .cons h

theorem stretch_reaches (p : Position) (c : Char) (cs : List Char) :
    Reaches p (c :: cs) (stretch p c cs).place (stretch p c cs).rest := by
  unfold stretch
  split
  · exact .cons (.cons (skipLine_reaches ..))
  · exact readBlockComment_reaches ..
  · exact readStringWord_reaches ..
  · split
    · exact .next ..
    · split
      · exact readNumber_reaches ..
      · split
        · exact .cons (.takeWhile ..)
        · split
          · exact .cons (.take 1 ..)
          · split <;> exact .next ..

/-! ## What is reported -/

/-- Where an unknown escape of `c` is reported, if `c` stands at `p`. -/
def escapePlace (p : Position) (c : Char) : Position :=
  if c = '\n' then ⟨p.line + 1, 0⟩ else p

/-- A report of the words: an unknown escape, at the escaped character unless that is a newline,
or something else at its own place. -/
inductive Noted (p : Position) (cs : List Char) : Diagnostic → Prop where
  | escape {q : Position} {c : Char} {rest : List Char} (h : Reaches p cs q (c :: rest)) :
    Noted p cs ⟨escapePlace q c, .unknownEscape c⟩
  | other {q : Position} {rest : List Char} {problem : Problem} (h : Reaches p cs q rest)
    (hproblem : ∀ c, problem ≠ .unknownEscape c) : Noted p cs ⟨q, problem⟩

namespace Noted

variable {p q : Position} {cs ds : List Char} {d : Diagnostic}

theorem behind (hreach : Reaches p cs q ds) (h : Noted q ds d) : Noted p cs d := by
  cases h with
  | escape h => exact .escape (hreach.trans h)
  | other h hproblem => exact .other (hreach.trans h) hproblem

/-- A report from the start of a text is in the text, unless a newline was escaped. -/
theorem place_in (h : Noted .start cs d) :
    (d.problem ≠ .unknownEscape '\n' ∧ d.place.In cs) ∨
      (d.problem = .unknownEscape '\n' ∧ d.place.column = 0 ∧
        ∃ line, d.place.line = line + 1 ∧ Position.In ⟨line, 1⟩ cs ∧
          Position.In ⟨line + 1, 1⟩ cs) := by
  cases h with
  | @escape q c rest h =>
    by_cases hc : c = '\n'
    · subst hc
      have hnext := (h.trans (.next q '\n' rest)).place_in
      rw [Position.next_newline] at hnext
      exact .inr ⟨rfl, rfl, q.line, rfl, h.place_in.line_start, hnext⟩
    · refine .inl ⟨fun he => hc (Problem.unknownEscape.inj he), ?_⟩
      rw [escapePlace, if_neg hc]
      exact h.place_in
  | other h hproblem => exact .inl ⟨hproblem _, h.place_in⟩

end Noted

theorem readString_noted {p : Position} {cs : List Char} {d : Diagnostic}
    (h : d ∈ (readString p cs).diagnostics) : Noted p cs d := by
  fun_induction readString p cs with
  | case1 | case2 | case3 | case4 => cases h
  | case5 p c rest q r e he ih => exact (ih h).behind (.cons (.next _ _ _))
  | case6 p c rest q r he ih =>
    rcases List.mem_cons.mp h with rfl | h
    · have hplace : (⟨q.line, q.column - 1⟩ : Position) = escapePlace (p.next '\\') c := by
        unfold escapePlace q
        split
        · rename_i hc
          subst hc
          rfl
        · rename_i hc
          rw [Position.next_of_ne hc]
          rfl
      rw [hplace]
      exact .escape (.next _ _ _)
    · exact (ih h).behind (.cons (.next _ _ _))
  | case7 p c rest _ _ _ _ r ih => exact (ih h).behind (.next _ _ _)

theorem noted_here {p : Position} {cs : List Char} {d : Diagnostic} {problem : Problem}
    (hproblem : ∀ c, problem ≠ .unknownEscape c) (h : d ∈ [(⟨p, problem⟩ : Diagnostic)]) :
    Noted p cs d := by
  obtain rfl := List.mem_singleton.mp h
  exact .other (.refl p cs) hproblem

theorem stretch_noted {p : Position} {c : Char} {cs : List Char} {d : Diagnostic}
    (h : d ∈ (stretch p c cs).diagnostics) : Noted p (c :: cs) d := by
  unfold stretch at h
  split at h
  · exact nomatch h
  · unfold readBlockComment at h
    split at h
    · exact nomatch h
    · exact noted_here (by nofun) h
  · unfold readStringWord at h
    simp only at h
    split at h
    · exact (readString_noted h).behind (.next _ _ _)
    · rcases List.mem_append.mp h with h | h
      · exact (readString_noted h).behind (.next _ _ _)
      · exact noted_here (by nofun) h
  · split at h
    · exact nomatch h
    · split at h
      · unfold readNumber at h
        simp only at h
        split at h
        · exact nomatch h
        · exact noted_here (by nofun) h
      · split at h
        · exact nomatch h
        · split at h
          · exact nomatch h
          · split at h
            · exact nomatch h
            · exact noted_here (by nofun) h

/-! ## Words -/

theorem ofWord_ne_finish (word : String) : TokenKind.ofWord word ≠ .finish := by
  unfold TokenKind.ofWord
  split <;> (intro hfinish; cases hfinish)

theorem doubleWord_ne_finish {c d : Char} {kind : TokenKind} (h : doubleWord c d = some kind) :
    kind ≠ .finish := by
  unfold doubleWord at h
  split at h <;> cases h <;> decide

theorem simpleWord_ne_finish {c : Char} {kind : TokenKind} (h : simpleWord c = some kind) :
    kind ≠ .finish := by
  unfold simpleWord at h
  split at h <;> cases h <;> decide

/-- A word stands where it begins, and none is the mark of the end. -/
theorem stretch_token {p : Position} {c : Char} {cs : List Char} {t : Token}
    (h : (stretch p c cs).token = some t) : t.place = p ∧ t.kind ≠ .finish := by
  unfold stretch at h
  split at h
  · exact nomatch h
  · unfold readBlockComment at h
    split at h <;> exact nomatch h
  · unfold readStringWord at h
    simp only at h
    split at h
    · obtain rfl := Option.some.inj h
      exact ⟨rfl, nofun⟩
    · exact nomatch h
  · split at h
    · exact nomatch h
    · split at h
      · unfold readNumber at h
        simp only at h
        split at h
        · obtain rfl := Option.some.inj h
          exact ⟨rfl, nofun⟩
        · exact nomatch h
      · split at h
        · obtain rfl := Option.some.inj h
          exact ⟨rfl, ofWord_ne_finish _⟩
        · split at h
          · rename_i kind hkind
            obtain rfl := Option.some.inj h
            obtain ⟨d, -, hd⟩ := Option.bind_eq_some_iff.mp hkind
            exact ⟨rfl, doubleWord_ne_finish hd⟩
          · split at h
            · rename_i kind hkind
              obtain rfl := Option.some.inj h
              exact ⟨rfl, simpleWord_ne_finish hkind⟩
            · exact nomatch h

/-- The words of a text and the mark of its end, which stands behind the last character. -/
theorem tokensFrom_finish (p : Position) (cs : List Char) :
    ∃ words, (tokensFrom p cs).1 = words ++ [⟨.finish, p.after cs⟩] ∧
      ∀ t ∈ words, t.kind ≠ .finish := by
  fun_induction tokensFrom p cs with
  | case1 => exact ⟨[], rfl, List.forall_mem_nil _⟩
  | case2 p c cs s r ih =>
    obtain ⟨words, hwords, hkinds⟩ := ih
    obtain ⟨used, hused, hplace⟩ := stretch_reaches p c cs
    refine ⟨s.token.toList ++ words, ?_, ?_⟩
    · rw [hwords, ← List.append_assoc, ← hused, Position.after_append, ← hplace]
    · intro t ht
      rcases List.mem_append.mp ht with ht | ht
      · exact (stretch_token (Option.mem_toList.mp ht)).2
      · exact hkinds t ht

/-- A word is read where it stands, and what is wrong with it is reported with the text. -/
theorem tokensFrom_word {p : Position} {cs : List Char} {t : Token}
    (h : t ∈ (tokensFrom p cs).1) (hkind : t.kind ≠ .finish) :
    ∃ c rest, Reaches p cs t.place (c :: rest) ∧ (stretch t.place c rest).token = some t ∧
      ∀ d ∈ (stretch t.place c rest).diagnostics, d ∈ (tokensFrom p cs).2 := by
  fun_induction tokensFrom p cs with
  | case1 p =>
    obtain rfl := List.mem_singleton.mp h
    exact absurd rfl hkind
  | case2 p c cs s r ih =>
    rcases List.mem_append.mp h with h | h
    · have hs : (stretch p c cs).token = some t := Option.mem_toList.mp h
      obtain rfl := (stretch_token hs).1
      exact ⟨c, cs, .refl _ _, hs, fun d hd => List.mem_append_left _ hd⟩
    · obtain ⟨d, rest, hreach, htoken, hdiagnostics⟩ := ih h
      exact ⟨d, rest, (stretch_reaches p c cs).trans hreach, htoken,
        fun e he => List.mem_append_right _ (hdiagnostics e he)⟩

theorem tokensFrom_noted {p : Position} {cs : List Char} {d : Diagnostic}
    (h : d ∈ (tokensFrom p cs).2) : Noted p cs d := by
  fun_induction tokensFrom p cs with
  | case1 => exact nomatch h
  | case2 p c cs s r ih =>
    rcases List.mem_append.mp h with h | h
    · exact stretch_noted h
    · exact (ih h).behind (stretch_reaches p c cs)

/-- Every word of a text, and the mark of its end, has a place in the text. -/
theorem tokensFrom_place {p : Position} {cs : List Char} {t : Token}
    (h : t ∈ (tokensFrom p cs).1) : ∃ rest, Reaches p cs t.place rest := by
  by_cases hkind : t.kind = .finish
  · obtain ⟨words, hwords, hkinds⟩ := tokensFrom_finish p cs
    rw [hwords] at h
    rcases List.mem_append.mp h with h | h
    · exact absurd hkind (hkinds t h)
    · obtain rfl := List.mem_singleton.mp h
      exact ⟨[], cs, List.append_nil cs, rfl⟩
  · obtain ⟨c, rest, hreach, -⟩ := tokensFrom_word h hkind
    exact ⟨c :: rest, hreach⟩

end Script
end CheckScript
