/-
The portions of a script.

From its first character to its last a script is made of lexemes, blanks, comments, and stretches
that a diagnostic reports.  `Portion.Stands` has a rule for each of them that looks at the text
alone, at the portion and at what stands behind it.  The words of a script are the lexemes among
its portions, each at the place of its first character (`tokens_placed`).

The readers move a place along as they go.  `placeBehind` counts the lines and columns of a text
from its characters, and both come to the same.
-/
import CheckScript.Proofs.Script.Place
import CheckScript.Proofs.Script.Spelling

namespace CheckScript
namespace Script

open Text (Ends)

/-! ## Places -/

/-- The place behind `cs`, in a text that begins with it: one line more than there are newlines,
one column more than there are characters behind the last of them. -/
def placeBehind (cs : List Char) : Position :=
  ⟨cs.count '\n' + 1, (cs.reverse.takeWhile (· != '\n')).length + 1⟩

theorem placeBehind_concat (cs : List Char) (c : Char) :
    placeBehind (cs ++ [c]) = (placeBehind cs).next c := by
  rw [placeBehind, List.count_append, List.reverse_concat]
  by_cases hc : c = '\n'
  · subst hc
    rw [Position.next_newline]
    rfl
  · have hcount : [c].count '\n' = 0 := Text.newlines_cons_of_ne hc []
    rw [Position.next_of_ne hc, hcount, List.takeWhile_cons, if_pos (bne_iff_ne.mpr hc)]
    rfl

theorem placeBehind_append (before cs : List Char) :
    placeBehind (before ++ cs) = (placeBehind before).after cs := by
  induction cs using List.reverseRecOn with
  | nil => rw [List.append_nil, Position.after_nil]
  | append_singleton cs c ih =>
    rw [← List.append_assoc, placeBehind_concat, ih, Position.after_append]
    rfl

namespace Position

/-- Strictly earlier in the order of reading. -/
def Before (p q : Position) : Prop := p.line < q.line ∨ p.line = q.line ∧ p.column < q.column

theorem Before.trans {p q r : Position} (h : p.Before q) (h' : q.Before r) : p.Before r := by
  unfold Before at *
  omega

theorem before_next (p : Position) (c : Char) : p.Before (p.next c) := by
  by_cases hc : c = '\n'
  · subst hc
    rw [next_newline]
    exact .inl (Nat.lt_succ_self _)
  · rw [next_of_ne hc]
    exact .inr ⟨rfl, Nat.lt_succ_self _⟩

/-- Every character that is read leads to a later place. -/
theorem before_after {cs : List Char} (h : cs ≠ []) (p : Position) : p.Before (p.after cs) := by
  induction cs generalizing p with
  | nil => exact absurd rfl h
  | cons c cs ih =>
    rw [after_cons]
    by_cases hcs : cs = []
    · subst hcs
      exact before_next p c
    · exact (before_next p c).trans (ih hcs _)

end Position

theorem stretch_before (p : Position) (c : Char) (cs : List Char) :
    p.Before (stretch p c cs).place := by
  obtain ⟨used, hused, hplace⟩ := stretch_reaches p c cs
  rw [hplace]
  refine Position.before_after (fun hnil => ?_) p
  have hlength := (stretch_suffix p c cs).length_le
  rw [hnil, List.nil_append] at hused
  rw [hused, List.length_cons] at hlength
  omega

/-- Each word stands behind the words before it, and the mark of the end behind all of them. -/
theorem tokensFrom_ordered (p : Position) (cs : List Char) :
    (tokensFrom p cs).1.Pairwise fun s t => s.place.Before t.place := by
  fun_induction tokensFrom p cs with
  | case1 p => exact List.pairwise_singleton _ _
  | case2 p c cs s r ih =>
    refine List.pairwise_append.mpr ⟨?_, ih, fun t ht u hu => ?_⟩
    · cases s.token with
      | none => exact .nil
      | some t => exact List.pairwise_singleton _ _
    · obtain ⟨rest, used, -, hplace⟩ := tokensFrom_place hu
      have hstep : t.place.Before s.place := by
        rw [(stretch_token (Option.mem_toList.mp ht)).1]
        exact stretch_before p c cs
      rw [hplace]
      by_cases hused : used = []
      · subst hused
        exact hstep
      · exact hstep.trans (Position.before_after hused _)

/-! ## Portions -/

/-- The characters between the quotes of a string literal, with the text that they stand for.  An
unknown escape stands for nothing. -/
inductive LiteralText : List Char → List Char → Prop where
  | nil : LiteralText [] []
  | plain {c : Char} {value inner : List Char} (hline : c ≠ '\n') (hquote : c ≠ '"')
      (hslash : c ≠ '\\') (h : LiteralText value inner) : LiteralText (c :: value) (c :: inner)
  | escape {c d : Char} {value inner : List Char} (hd : unescape c = some d)
      (h : LiteralText value inner) : LiteralText (d :: value) ('\\' :: c :: inner)
  | unknown {c : Char} {value inner : List Char} (hc : unescape c = none)
      (h : LiteralText value inner) : LiteralText value ('\\' :: c :: inner)

/-- What closes a block comment. -/
def commentEnd : List Char := ['*', '/']

inductive Portion where
  | lexeme (kind : TokenKind) (text : List Char)
  | blank (c : Char)
  | comment (text : List Char)
  | reported (problem : Problem) (text : List Char)

namespace Portion

def text : Portion → List Char
  | lexeme _ text => text
  | blank c => [c]
  | comment text => text
  | reported _ text => text

/-- A portion may stand in front of `rest`: the text is one of its kind, and does not go on in
`rest`. -/
inductive Stands (rest : List Char) : Portion → Prop where
  | sign {c : Char} {kind : TokenKind} (hkind : simpleWord c = some kind)
      (hpair : rest.head?.bind (doubleWord c) = none) (hcomment : ¬OpensComment c rest) :
      Stands rest (.lexeme kind [c])
  | pair {c d : Char} {kind : TokenKind} (hkind : doubleWord c d = some kind) :
      Stands rest (.lexeme kind [c, d])
  | name {c : Char} {more : List Char} (hstart : Text.isNameStart c = true)
      (hmore : ∀ d ∈ more, Text.isNameChar d = true) (hends : Ends Text.isNameChar rest) :
      Stands rest (.lexeme (.ofWord (String.ofList (c :: more))) (c :: more))
  | number {c : Char} {more : List Char} {n : Nat} (hstart : Text.isDigit c = true)
      (hmore : ∀ d ∈ more, isDigitOrGap d = true) (hends : Ends isDigitOrGap rest)
      (hvalue : Integer.ofDigits (c :: more.filter Text.isDigit) = n)
      (hfits : Integer.fits n = true) : Stands rest (.lexeme (.int n) (c :: more))
  | literal {value inner : List Char} (h : LiteralText value inner) :
      Stands rest (.lexeme (.str (String.ofList value)) ('"' :: (inner ++ ['"'])))
  | blank {c : Char} (h : c ∈ [' ', '\t', '\r', '\n']) : Stands rest (.blank c)
  | lineComment {body : List Char} (hbody : '\n' ∉ body) (hends : Ends (· != '\n') rest) :
      Stands rest (.comment ('/' :: '/' :: body))
  | blockComment {body : List Char} (hbody : ¬commentEnd <:+: body) :
      Stands rest (.comment ('/' :: '*' :: (body ++ commentEnd)))
  | openComment {body : List Char} (hbody : ¬commentEnd <:+: body) (hend : rest = []) :
      Stands rest (.reported .openComment ('/' :: '*' :: body))
  | openString {value inner : List Char} (h : LiteralText value inner)
      (hends : Ends (· != '\n') rest) : Stands rest (.reported .openString ('"' :: inner))
  /-- The text ends behind a backslash. -/
  | openEscape {value inner : List Char} (h : LiteralText value inner) (hend : rest = []) :
      Stands rest (.reported .openString ('"' :: (inner ++ ['\\'])))
  | largeNumber {c : Char} {more digits : List Char} (hstart : Text.isDigit c = true)
      (hmore : ∀ d ∈ more, isDigitOrGap d = true) (hends : Ends isDigitOrGap rest)
      (hdigits : c :: more.filter Text.isDigit = digits)
      (hlarge : Integer.fits (Integer.ofDigits digits) = false) :
      Stands rest (.reported (.integerTooLarge digits) (c :: more))
  | character {c : Char} (hblank : c ∉ [' ', '\t', '\r', '\n']) (hquote : c ≠ '"')
      (hdigit : Text.isDigit c = false) (hname : Text.isNameStart c = false)
      (hsign : simpleWord c = none) (hpair : rest.head?.bind (doubleWord c) = none) :
      Stands rest (.reported (.unexpectedCharacter c) [c])

/-- The words that a portion gives that stands at `p`. -/
def tokens (p : Position) : Portion → List Token
  | lexeme kind _ => [⟨kind, p⟩]
  | _ => []

/-- What is reported about a portion that stands at `p`. -/
def reports (p : Position) : Portion → List Diagnostic
  | reported problem _ => [⟨p, problem⟩]
  | _ => []

/-- What the portions behind `before` give, each at the place of its first character. -/
def along {α : Type} (f : Position → Portion → List α) (before : List Char) :
    List Portion → List α
  | [] => []
  | s :: ss => f (placeBehind before) s ++ along f (before ++ s.text) ss

/-- The text is these portions, one behind another. -/
inductive Divides : List Portion → List Char → Prop where
  | nil : Divides [] []
  | cons {s : Portion} {ss : List Portion} {rest : List Char} (hs : s.Stands rest)
      (hss : Divides ss rest) : Divides (s :: ss) (s.text ++ rest)

/-- `s` is what is read from the text `cs` that begins at `p`. -/
structure Covers (p : Position) (cs : List Char) (r : Stretch) (s : Portion) : Prop where
  stands : s.Stands r.rest
  text_eq : s.text ++ r.rest = cs
  tokens_eq : r.token.toList = s.tokens p
  reports_sub : (s.reports p).Sublist r.diagnostics

end Portion

open Portion (Covers Stands)

/-! ## What the readers cover -/

theorem isScriptBlank_iff {c : Char} : isScriptBlank c = true ↔ c ∈ [' ', '\t', '\r', '\n'] := by
  simp only [isScriptBlank, Bool.or_eq_true, beq_iff_eq, List.mem_cons, List.not_mem_nil, or_false]
  tauto

theorem skipLine_rest (p : Position) (cs : List Char) :
    (skipLine p cs).2 = cs.dropWhile (· != '\n') := by
  induction cs generalizing p with
  | nil => rfl
  | cons c cs ih =>
    unfold skipLine
    by_cases hc : c = '\n'
    · subst hc
      rfl
    · rw [if_neg hc, ih, List.dropWhile_cons, if_pos (bne_iff_ne.mpr hc)]

theorem skipLine_covers (p : Position) (cs : List Char) :
    Covers p ('/' :: '/' :: cs)
      (.blank (skipLine ((p.next '/').next '/') cs).1 (skipLine ((p.next '/').next '/') cs).2)
      (.comment ('/' :: '/' :: cs.takeWhile (· != '\n'))) where
  stands := by
    refine .lineComment (fun hmem => ?_) ?_
    · have hline := List.all_eq_true.mp List.all_takeWhile _ hmem
      exact absurd hline (by decide)
    · rw [Stretch.blank, skipLine_rest]
      exact Text.ends_dropWhile _ _
  text_eq := by
    show '/' :: '/' :: (cs.takeWhile (· != '\n') ++ (skipLine _ cs).2) = _
    rw [skipLine_rest, List.takeWhile_append_dropWhile]
  tokens_eq := rfl
  reports_sub := .slnil

theorem skipComment_closed {p q : Position} {cs rest : List Char}
    (h : skipComment p cs = (true, q, rest)) :
    ∃ body, ¬commentEnd <:+: body ∧ body ++ (commentEnd ++ rest) = cs := by
  fun_induction skipComment p cs with
  | case1 => cases h
  | case2 =>
    cases h
    exact ⟨[], by simp [commentEnd], rfl⟩
  | case3 p c cs hopen ih =>
    obtain ⟨body, hbody, rfl⟩ := ih h
    refine ⟨c :: body, ?_, rfl⟩
    rw [List.infix_cons_iff, not_or]
    refine ⟨?_, hbody⟩
    rintro ⟨tail, htail⟩
    cases htail
    exact hopen _ rfl rfl

theorem skipComment_open {p q : Position} {cs rest : List Char}
    (h : skipComment p cs = (false, q, rest)) : ¬commentEnd <:+: cs ∧ rest = [] := by
  fun_induction skipComment p cs with
  | case1 =>
    cases h
    exact ⟨by simp [commentEnd], rfl⟩
  | case2 => cases h
  | case3 p c cs hopen ih =>
    obtain ⟨hbody, hrest⟩ := ih h
    refine ⟨?_, hrest⟩
    rw [List.infix_cons_iff, not_or]
    refine ⟨?_, hbody⟩
    rintro ⟨tail, htail⟩
    cases htail
    exact hopen _ rfl rfl

theorem readBlockComment_covers (p : Position) (cs : List Char) :
    ∃ s, Covers p ('/' :: '*' :: cs) (readBlockComment p cs) s := by
  unfold readBlockComment
  split
  · rename_i q rest hskip
    obtain ⟨body, hbody, rfl⟩ := skipComment_closed hskip
    refine ⟨.comment ('/' :: '*' :: (body ++ commentEnd)), .blockComment hbody, ?_, rfl, .slnil⟩
    simp [Portion.text, Stretch.blank]
  · rename_i q rest hskip
    obtain ⟨hbody, rfl⟩ := skipComment_open hskip
    refine ⟨.reported .openComment ('/' :: '*' :: cs), .openComment hbody rfl, ?_, rfl,
      List.Sublist.refl _⟩
    simp [Portion.text, Stretch.bad]

/-- How a literal that was read as `r` ends, if `value` is the text of its characters: at the
closing quote, at the end of the line, or behind a backslash at the end of the text. -/
inductive LiteralEnd (r : StringRead) (value : List Char) : List Char → Prop where
  | quote (hclosed : r.closed = true) (hvalue : value = r.value) :
      LiteralEnd r value ('"' :: r.rest)
  | line (hopen : r.closed = false) (hends : Ends (· != '\n') r.rest) : LiteralEnd r value r.rest
  | backslash (hopen : r.closed = false) (hrest : r.rest = []) : LiteralEnd r value ['\\']

theorem LiteralEnd.further {r r' : StringRead} {value value' tail : List Char}
    (h : LiteralEnd r value tail) (hclosed : r'.closed = r.closed) (hrest : r'.rest = r.rest)
    (hvalue : value = r.value → value' = r'.value) : LiteralEnd r' value' tail := by
  cases h with
  | quote h hv => exact hrest ▸ .quote (hclosed.trans h) (hvalue hv)
  | line h hends => exact hrest ▸ .line (hclosed.trans h) (hrest.symm ▸ hends)
  | backslash h hnil => exact .backslash (hclosed.trans h) (hrest.trans hnil)

theorem readString_text (p : Position) (cs : List Char) :
    ∃ value inner tail, LiteralText value inner ∧ LiteralEnd (readString p cs) value tail ∧
      inner ++ tail = cs := by
  fun_induction readString p cs with
  | case1 => exact ⟨[], [], [], .nil, .line rfl (Text.ends_nil _), rfl⟩
  | case2 p cs => exact ⟨[], [], _, .nil, .line rfl (Text.ends_cons rfl), rfl⟩
  | case3 p cs => exact ⟨[], [], _, .nil, .quote rfl rfl, rfl⟩
  | case4 p => exact ⟨[], [], _, .nil, .backslash rfl rfl, rfl⟩
  | case5 p c cs q r d hd ih =>
    obtain ⟨value, inner, tail, hinner, hend, rfl⟩ := ih
    exact ⟨d :: value, '\\' :: c :: inner, tail, .escape hd hinner,
      hend.further rfl rfl (congrArg (d :: ·)), rfl⟩
  | case6 p c cs q r hc ih =>
    obtain ⟨value, inner, tail, hinner, hend, rfl⟩ := ih
    exact ⟨value, '\\' :: c :: inner, tail, .unknown hc hinner, hend.further rfl rfl id, rfl⟩
  | case7 p c cs hline hquote hlast hpair r ih =>
    obtain ⟨value, inner, tail, hinner, hend, rfl⟩ := ih
    have hslash : c ≠ '\\' := by
      intro hc
      cases htail : inner ++ tail with
      | nil => exact hlast hc htail
      | cons d ds => exact hpair d ds hc htail
    exact ⟨c :: value, c :: inner, tail, .plain hline hquote hslash hinner,
      hend.further rfl rfl (congrArg (c :: ·)), rfl⟩

theorem readStringWord_covers (p : Position) (cs : List Char) :
    ∃ s, Covers p ('"' :: cs) (readStringWord p cs) s := by
  obtain ⟨value, inner, tail, hinner, hend, rfl⟩ := readString_text (p.next '"') cs
  unfold readStringWord
  simp only
  generalize readString (p.next '"') (inner ++ tail) = r at hend ⊢
  cases hend with
  | quote hclosed hvalue =>
    rw [if_pos hclosed, ← hvalue]
    refine ⟨.lexeme (.str (String.ofList value)) ('"' :: (inner ++ ['"'])), .literal hinner, ?_,
      rfl, List.nil_sublist _⟩
    simp [Portion.text]
  | line hopen hends =>
    rw [if_neg (by rw [hopen]; exact Bool.false_ne_true)]
    exact ⟨.reported .openString ('"' :: inner), .openString hinner hends, rfl, rfl,
      List.sublist_append_right _ _⟩
  | backslash hopen hrest =>
    rw [if_neg (by rw [hopen]; exact Bool.false_ne_true)]
    refine ⟨.reported .openString ('"' :: (inner ++ ['\\'])), .openEscape hinner hrest, ?_, rfl,
      List.sublist_append_right _ _⟩
    simp [Portion.text, hrest]

theorem readNumber_covers (p : Position) {c : Char} (hc : Text.isDigit c = true)
    (cs : List Char) : ∃ s, Covers p (c :: cs) (readNumber p c cs) s := by
  have hmore : ∀ d ∈ cs.takeWhile isDigitOrGap, isDigitOrGap d = true :=
    List.all_eq_true.mp List.all_takeWhile
  have htext : c :: cs.takeWhile isDigitOrGap ++ cs.dropWhile isDigitOrGap = c :: cs :=
    congrArg (c :: ·) List.takeWhile_append_dropWhile
  unfold readNumber
  simp only
  split
  · rename_i hfits
    exact ⟨.lexeme _ _, .number hc hmore (Text.ends_dropWhile _ _) rfl hfits, htext, rfl, .slnil⟩
  · rename_i hlarge
    exact ⟨.reported _ _, .largeNumber hc hmore (Text.ends_dropWhile _ _) rfl
      (Bool.eq_false_iff.mpr hlarge), htext, rfl, List.Sublist.refl _⟩

theorem readName_covers (p : Position) {c : Char} (hc : Text.isNameStart c = true)
    (cs : List Char) : ∃ s, Covers p (c :: cs) (readName p c cs) s :=
  ⟨.lexeme _ _, .name hc (List.all_eq_true.mp List.all_takeWhile) (Text.ends_dropWhile _ _),
    congrArg (c :: ·) List.takeWhile_append_dropWhile, rfl, .slnil⟩

/-- Whatever is read next is a portion. -/
theorem stretch_covers (p : Position) (c : Char) (cs : List Char) :
    ∃ s, Covers p (c :: cs) (stretch p c cs) s := by
  by_cases hquote : c = '"'
  · subst hquote
    exact readStringWord_covers p cs
  by_cases hcomment : OpensComment c cs
  · obtain ⟨rfl, hhead | hhead⟩ := hcomment
    · obtain ⟨rest, rfl⟩ := List.head?_eq_some_iff.mp hhead
      exact ⟨_, skipLine_covers p rest⟩
    · obtain ⟨rest, rfl⟩ := List.head?_eq_some_iff.mp hhead
      exact readBlockComment_covers p rest
  rw [stretch_other hquote hcomment]
  split
  · rename_i hblank
    exact ⟨.blank c, .blank (isScriptBlank_iff.mp hblank), rfl, rfl, .slnil⟩
  · rename_i hblank
    split
    · rename_i hdigit
      exact readNumber_covers p hdigit cs
    · rename_i hdigit
      split
      · rename_i hname
        exact readName_covers p hname cs
      · rename_i hname
        split
        · rename_i kind hkind
          obtain ⟨d, hd, hpair⟩ := Option.bind_eq_some_iff.mp hkind
          obtain ⟨rest, rfl⟩ := List.head?_eq_some_iff.mp hd
          exact ⟨.lexeme kind [c, d], .pair hpair, rfl, rfl, .slnil⟩
        · rename_i hpair
          split
          · rename_i kind hkind
            exact ⟨.lexeme kind [c], .sign hkind hpair hcomment, rfl, rfl, .slnil⟩
          · rename_i hsign
            exact ⟨.reported _ [c], .character (fun h => hblank (isScriptBlank_iff.mpr h)) hquote
              (Bool.eq_false_iff.mpr hdigit) (Bool.eq_false_iff.mpr hname) hsign hpair, rfl, rfl,
              List.Sublist.refl _⟩

/-! ## The whole script -/

theorem tokensFrom_divides (before cs : List Char) :
    ∃ portions, Portion.Divides portions cs ∧
      (tokensFrom (placeBehind before) cs).1 =
        Portion.along Portion.tokens before portions ++ [⟨.finish, placeBehind (before ++ cs)⟩] ∧
      (Portion.along Portion.reports before portions).Sublist
        (tokensFrom (placeBehind before) cs).2 := by
  generalize hp : placeBehind before = p
  fun_induction tokensFrom p cs generalizing before with
  | case1 p =>
    refine ⟨[], .nil, ?_, .slnil⟩
    rw [List.append_nil, hp]
    rfl
  | case2 p c cs r rest ih =>
    obtain ⟨s, hstands, htext, htokens, hreports⟩ := stretch_covers p c cs
    have hplace : placeBehind (before ++ s.text) = r.place := by
      obtain ⟨used, hused, hplace⟩ := stretch_reaches p c cs
      rw [placeBehind_append, hp, hplace, List.append_cancel_right (htext.trans hused.symm)]
    obtain ⟨portions, hdivides, hwords, hnotes⟩ := ih (before ++ s.text) hplace
    refine ⟨s :: portions, htext ▸ .cons hstands hdivides, ?_, ?_⟩
    · rw [Portion.along, List.append_assoc, ← htext, ← List.append_assoc before, ← hwords, hp,
        htokens]
    · rw [Portion.along, hp]
      exact hreports.append hnotes

/-- A script is lexemes, blanks, comments and reported stretches, one behind another.  Its words
are the lexemes, each at the place of its first character, and behind them the mark of the end,
behind the last character.  So the places increase from word to word.  Each of the stretches that
are none of these is reported at its first character. -/
theorem tokens_placed (text : String) :
    ∃ portions, Portion.Divides portions text.toList ∧
      (tokenize text).1 =
        Portion.along Portion.tokens [] portions ++ [⟨.finish, placeBehind text.toList⟩] ∧
      (∀ t ∈ Portion.along Portion.tokens [] portions, t.kind ≠ .finish) ∧
      (tokenize text).1.Pairwise (fun s t => s.place.Before t.place) ∧
      (Portion.along Portion.reports [] portions).Sublist (tokenize text).2 := by
  obtain ⟨portions, hdivides, hwords, hreports⟩ := tokensFrom_divides [] text.toList
  refine ⟨portions, hdivides, hwords, ?_, tokensFrom_ordered .start text.toList, hreports⟩
  obtain ⟨words, htokens, hkinds⟩ := tokensFrom_finish .start text.toList
  have hsame := List.append_inj_left' (hwords.symm.trans htokens) rfl
  rw [hsame]
  exact hkinds

end Script
end CheckScript
