/-
Words of scripts with other ends of lines.

A carriage return in front of a newline is blank, or it belongs to a comment or to an open
literal, and the newline behind it starts the columns anew.  So readers of two texts that differ
in such returns stand at the same place again when they have passed the newline: `Meets` says
where the readers are in between.
-/
import CheckScript.Proofs.Script.Lexeme
import CheckScript.Proofs.Script.Spelling
import CheckScript.Proofs.Text.Returned
import CheckScript.Script.Compile

namespace CheckScript
namespace Script

open Text (Returned)

/-- Where the readers of two texts stand after the same stretch: at the same place, or both in
front of a newline that ends the same line. -/
inductive Meets : Position → List Char → Position → List Char → Prop where
  | same {p : Position} {cs ds : List Char} (h : Returned cs ds) : Meets p cs p ds
  | newline {p q : Position} {cs ds : List Char} (h : Returned cs ds) (hline : p.line = q.line) :
    Meets p ('\n' :: cs) q ('\n' :: ds)

/-- Stretches with the same word and the same diagnostics. -/
structure Stretch.Alike (s t : Stretch) : Prop where
  token : s.token = t.token
  diagnostics : s.diagnostics = t.diagnostics
  meets : Meets s.place s.rest t.place t.rest

variable {p : Position} {c : Char} {cs ds : List Char}

/-! ## Readers -/

theorem skipLine_meets (h : Returned cs ds) :
    Meets (skipLine p cs).1 (skipLine p cs).2 (skipLine p ds).1 (skipLine p ds).2 := by
  induction h generalizing p with
  | nil => exact .same .nil
  | @cons c _ _ hc hslash h ih =>
    unfold skipLine
    split
    · exact .same (.cons hc hslash h)
    · exact ih
  | newline h => exact .newline h rfl

theorem skipComment_returned (h : Returned cs ds) :
    (skipComment p ds).1 = (skipComment p cs).1 ∧
      (skipComment p ds).2.1 = (skipComment p cs).2.1 ∧
      Returned (skipComment p cs).2.2 (skipComment p ds).2.2 := by
  fun_induction skipComment p cs generalizing ds with
  | case1 =>
    obtain rfl := h.nil_left
    exact ⟨rfl, rfl, .nil⟩
  | case2 =>
    obtain ⟨_, rfl, hslash⟩ := h.cons_left (by decide)
    obtain ⟨_, rfl, hrest⟩ := hslash.cons_left (by decide)
    exact ⟨rfl, rfl, hrest⟩
  | case3 p c cs hopen ih =>
    cases h with
    | @cons _ _ ds hc hslash h =>
      -- what does not end the comment in the one text does not end it in the other
      have hskip : skipComment p (c :: ds) = skipComment (p.next c) ds := by
        rw [skipComment]
        rintro rest rfl rfl
        obtain ⟨es, rfl, -⟩ := h.cons_right (by decide)
        exact hopen _ rfl rfl
      rw [hskip]
      exact ih h
    | newline h => exact ih h

theorem readBlockComment_alike (h : Returned cs ds) :
    (readBlockComment p cs).Alike (readBlockComment p ds) := by
  obtain ⟨hclosed, hplace, hrest⟩ := skipComment_returned (p := (p.next '/').next '*') h
  unfold readBlockComment
  generalize skipComment ((p.next '/').next '*') cs = r at hclosed hplace hrest
  generalize skipComment ((p.next '/').next '*') ds = r' at hclosed hplace hrest
  obtain ⟨closed, q, rest⟩ := r
  obtain ⟨closed', q', rest'⟩ := r'
  obtain rfl : closed' = closed := hclosed
  obtain rfl : q' = q := hplace
  cases closed' <;> exact ⟨rfl, rfl, .same hrest⟩

theorem readString_unknown (h : unescape c = none) (p : Position) (cs : List Char) :
    readString p ('\\' :: c :: cs) =
      let q := (p.next '\\').next c
      let r := readString q cs
      { r with diagnostics := ⟨⟨q.line, q.column - 1⟩, .unknownEscape c⟩ :: r.diagnostics } := by
  rw [readString, h]

/-- Literals that are read alike.  A carriage return can come into the value of a literal only if
it is not closed. -/
structure StringRead.Alike (r s : StringRead) : Prop where
  closed : s.closed = r.closed
  diagnostics : s.diagnostics = r.diagnostics
  value : r.closed = true → s.value = r.value
  meets : Meets r.place r.rest s.place s.rest

theorem readString_alike (h : Returned cs ds) : (readString p cs).Alike (readString p ds) := by
  fun_induction readString p cs generalizing ds with
  | case1 =>
    obtain rfl := h.nil_left
    exact ⟨rfl, rfl, fun _ => rfl, .same .nil⟩
  | case2 p cs =>
    cases h with
    | cons hc hslash h => exact ⟨rfl, rfl, fun _ => rfl, .same (.cons hc hslash h)⟩
    | newline h => exact ⟨rfl, rfl, fun hc => absurd hc Bool.false_ne_true, .newline h rfl⟩
  | case3 =>
    obtain ⟨_, rfl, hrest⟩ := h.cons_left (by decide)
    exact ⟨rfl, rfl, fun _ => rfl, .same hrest⟩
  | case4 =>
    obtain ⟨_, rfl, hrest⟩ := h.cons_left (by decide)
    obtain rfl := hrest.nil_left
    exact ⟨rfl, rfl, fun _ => rfl, .same .nil⟩
  | case5 p c cs q r d hd =>
    rename_i ih
    obtain ⟨ds, rfl, hrest⟩ := h.escape_left
    obtain ⟨hclosed, hdiagnostics, hvalue, hmeets⟩ := ih hrest
    rw [readString_escape hd]
    exact ⟨hclosed, hdiagnostics, fun hc => congrArg (d :: ·) (hvalue hc), hmeets⟩
  | case6 p c cs q r hd =>
    rename_i ih
    obtain ⟨ds, rfl, hrest⟩ := h.escape_left
    obtain ⟨hclosed, hdiagnostics, hvalue, hmeets⟩ := ih hrest
    rw [readString_unknown hd]
    exact ⟨hclosed, congrArg (_ :: ·) hdiagnostics, hvalue, hmeets⟩
  | case7 p c cs hnewline hquote hend hescape r =>
    rename_i ih
    obtain ⟨ds, rfl, hrest⟩ := h.cons_left hnewline
    have hplain : c ≠ '\\' := fun hc => by
      cases cs with
      | nil => exact hend hc rfl
      | cons d cs => exact hescape d cs hc rfl
    obtain ⟨hclosed, hdiagnostics, hvalue, hmeets⟩ := ih hrest
    rw [readString_plain hnewline hquote hplain]
    exact ⟨hclosed, hdiagnostics, fun hc => congrArg (c :: ·) (hvalue hc), hmeets⟩

theorem readStringWord_alike (h : Returned cs ds) :
    (readStringWord p cs).Alike (readStringWord p ds) := by
  obtain ⟨hclosed, hdiagnostics, hvalue, hmeets⟩ := readString_alike (p := p.next '"') h
  unfold readStringWord
  simp only [hclosed, hdiagnostics]
  split
  · rename_i hclosed
    rw [hvalue hclosed]
    exact ⟨rfl, rfl, hmeets⟩
  · exact ⟨rfl, rfl, hmeets⟩

theorem readNumber_alike (h : Returned cs ds) : (readNumber p c cs).Alike (readNumber p c ds) := by
  have hrest := h.dropWhile (f := isDigitOrGap) (by decide) (by decide)
  unfold readNumber
  rw [h.takeWhile (f := isDigitOrGap) (by decide) (by decide)]
  simp only
  split <;> exact ⟨rfl, rfl, .same hrest⟩

theorem readName_alike (h : Returned cs ds) : (readName p c cs).Alike (readName p c ds) := by
  have hrest := h.dropWhile (f := Text.isNameChar) (by decide) (by decide)
  unfold readName
  rw [h.takeWhile (f := Text.isNameChar) (by decide) (by decide)]
  exact ⟨rfl, rfl, .same hrest⟩

/-- No operator has a line end in it. -/
theorem doubleWord_returned (h : Returned cs ds) (c : Char) :
    ds.head?.bind (doubleWord c) = cs.head?.bind (doubleWord c) := by
  have hnone : ∀ d, d = '\n' ∨ d = '\r' → doubleWord c d = none := by
    rintro d hd
    cases hkind : doubleWord c d with
    | none => rfl
    | some kind =>
      unfold doubleWord at hkind
      split at hkind <;> simp_all
  cases h with
  | nil | cons => rfl
  | newline => exact (hnone _ (.inr rfl)).trans (hnone _ (.inl rfl)).symm

theorem stretch_alike (h : Returned cs ds) : (stretch p c cs).Alike (stretch p c ds) := by
  by_cases hquote : c = '"'
  · subst hquote
    exact readStringWord_alike h
  by_cases hcomment : OpensComment c cs
  · obtain ⟨rfl, hhead | hhead⟩ := hcomment
    · obtain ⟨rest, rfl⟩ := List.head?_eq_some_iff.mp hhead
      obtain ⟨_, rfl, hrest⟩ := h.cons_left (by decide)
      exact ⟨rfl, rfl, skipLine_meets hrest⟩
    · obtain ⟨rest, rfl⟩ := List.head?_eq_some_iff.mp hhead
      obtain ⟨_, rfl, hrest⟩ := h.cons_left (by decide)
      exact readBlockComment_alike hrest
  · have hcomment' : ¬OpensComment c ds := by
      rwa [OpensComment, h.head_iff (by decide) (by decide), h.head_iff (by decide) (by decide)]
    rw [stretch_other hquote hcomment, stretch_other hquote hcomment']
    split
    · exact ⟨rfl, rfl, .same h⟩
    · split
      · exact readNumber_alike h
      · split
        · exact readName_alike h
        · rw [doubleWord_returned h]
          split
          · rename_i hkind
            obtain ⟨d, hd, hdouble⟩ := Option.bind_eq_some_iff.mp hkind
            obtain ⟨rest, rfl⟩ := List.head?_eq_some_iff.mp hd
            obtain ⟨_, rfl, hrest⟩ := h.cons_left (doubleWord_ne_newline hdouble).2
            exact ⟨rfl, rfl, .same hrest⟩
          · split <;> exact ⟨rfl, rfl, .same h⟩

/-! ## Whole scripts -/

/-- A newline is blank, and the columns begin anew behind it. -/
theorem tokensFrom_newline (p : Position) (cs : List Char) :
    tokensFrom p ('\n' :: cs) = tokensFrom ⟨p.line + 1, 1⟩ cs := by
  rw [tokensFrom]
  rfl

theorem tokensFrom_return (p : Position) (cs : List Char) :
    tokensFrom p ('\r' :: cs) = tokensFrom (p.next '\r') cs := by
  rw [tokensFrom]
  rfl

/-- Readers that meet read the same words from there. -/
theorem tokensFrom_meets {p q : Position} {cs ds : List Char} (h : Meets p cs q ds) :
    tokensFrom q ds = tokensFrom p cs := by
  fun_induction tokensFrom p cs generalizing q ds with
  | case1 p =>
    cases h with
    | same h =>
      obtain rfl := h.nil_left
      rw [tokensFrom]
  | case2 p c cs s =>
    rename_i ih
    cases h with
    | newline h hline =>
      have hcs := ih (q := ⟨p.line + 1, 1⟩) (.same h)
      rw [tokensFrom_newline, ← hline]
      exact hcs
    | same h =>
      cases h with
      | cons _ _ h =>
        obtain ⟨htoken, hdiagnostics, hmeets⟩ := stretch_alike (p := p) (c := c) h
        rw [tokensFrom, ← htoken, ← hdiagnostics, ih hmeets]
      | newline h =>
        have hcs := ih (q := ⟨p.line + 1, 1⟩) (.same h)
        rw [tokensFrom_return, tokensFrom_newline]
        exact hcs

theorem tokenize_returned {s t : String} (h : Returned s.toList t.toList) :
    tokenize t = tokenize s :=
  tokensFrom_meets (.same h)

/-- A script with other ends of lines compiles to the same program, or it is turned down with the
same diagnostics. -/
theorem compile_returned {s t : String} (h : Returned s.toList t.toList) :
    compile t = compile s := by
  unfold compile diagnose
  rw [tokenize_returned h]

end Script
end CheckScript
