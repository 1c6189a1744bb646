/-
The scanner on two sources that differ in the ends of their lines only.

A carriage return in front of a newline stands wherever the newline may stand, and the scanner
passes both in two steps where it passes the newline alone in one.  After each other step the
rests of the two sources are `Returned` again, and what was met is the same, comments apart,
whose texts are `Returned` (`step_agree`).  So the same comments are found on the same lines, or
the same fault (`scanFrom_agree`).
-/
import CheckScript.Proofs.Source.Placement
import CheckScript.Proofs.Text.Returned
import Mathlib.Data.List.Forall2

namespace CheckScript
namespace Source

open Text (Returned)

/-! ## Literals -/

/-- What two readers of a literal leave behind: the same line, and texts that differ in the ends
of their lines only. -/
def Left (a b : Nat × List Char) : Prop := a.1 = b.1 ∧ Returned a.2 b.2

variable {cs ds : List Char}

theorem return_not_mem_hashes (n : Nat) : '\r' ∉ List.replicate n '#' :=
  fun hmem => absurd (List.eq_of_mem_replicate hmem) (by decide)

theorem afterString_left (line : Nat) (h : Returned cs ds) :
    Option.Rel Left (afterString line cs) (afterString line ds) := by
  fun_induction afterString line cs generalizing ds with
  | case1 =>
    obtain rfl := h.nil_left
    exact .none
  | case2 =>
    obtain ⟨_, rfl, hrest⟩ := h.cons_left (by decide)
    exact .some ⟨rfl, hrest⟩
  | case3 line c cs ih =>
    obtain ⟨_, rfl, hrest⟩ := h.escape_left
    exact ih hrest
  | case4 line c cs hquote hescape ih =>
    cases h with
    | @cons _ _ ds _ _ h =>
      rw [afterString]
      · exact ih h
      · exact hquote
      · rintro d es hc rfl
        cases cs with
        | nil => exact nomatch h
        | cons d cs => exact hescape d cs hc rfl
    | newline h => exact ih h

theorem afterVerbatim_left (line : Nat) (h : Returned cs ds) :
    Option.Rel Left (afterVerbatim line cs) (afterVerbatim line ds) := by
  fun_induction afterVerbatim line cs generalizing ds with
  | case1 =>
    obtain rfl := h.nil_left
    exact .none
  | case2 line cs ih =>
    obtain ⟨_, rfl, hquote⟩ := h.cons_left (by decide)
    obtain ⟨_, rfl, hrest⟩ := hquote.cons_left (by decide)
    rw [afterVerbatim]
    exact ih hrest
  | case3 line cs hopen =>
    obtain ⟨ds, rfl, hrest⟩ := h.cons_left (by decide)
    rw [afterVerbatim]
    · exact .some ⟨rfl, hrest⟩
    · rintro es rfl
      obtain ⟨_, rfl, -⟩ := hrest.cons_right (by decide)
      exact hopen _ rfl
  | case4 line c cs hdouble hquote ih =>
    cases h with
    | cons _ _ h =>
      rw [afterVerbatim]
      · exact ih h
      · exact fun _ hc _ => hquote hc
      · exact hquote
    | newline h => exact ih h

theorem afterRaw_left (hashes line : Nat) (h : Returned cs ds) :
    Option.Rel Left (afterRaw hashes line cs) (afterRaw hashes line ds) := by
  fun_induction afterRaw hashes line cs generalizing ds with
  | case1 =>
    obtain rfl := h.nil_left
    exact .none
  | case2 line c cs hclose =>
    obtain ⟨rfl, hprefix⟩ := hclose
    obtain ⟨ds, rfl, hrest⟩ := h.cons_left (by decide)
    obtain ⟨cs, rfl⟩ := List.isPrefixOf_iff_prefix.mp hprefix
    obtain ⟨ds, rfl, hbehind⟩ := hrest.behind_prefix (newline_not_mem_hashes hashes)
    rw [afterRaw, if_pos ⟨rfl, List.isPrefixOf_iff_prefix.mpr (List.prefix_append ..)⟩,
      List.drop_left' List.length_replicate, List.drop_left' List.length_replicate]
    exact .some ⟨rfl, hbehind⟩
  | case3 line c cs hopen ih =>
    cases h with
    | @cons _ _ ds _ _ h =>
      rw [afterRaw, if_neg]
      · exact ih h
      · rwa [List.isPrefixOf_iff_prefix, h.prefix_iff (newline_not_mem_hashes hashes)
          (return_not_mem_hashes hashes), ← List.isPrefixOf_iff_prefix]
    | newline h =>
      rw [afterRaw, if_neg (by simp), afterRaw, if_neg (by simp)]
      exact ih h

theorem afterCharacter_left (line : Nat) (h : Returned cs ds) :
    Option.Rel Left (afterCharacter line cs) (afterCharacter line ds) := by
  fun_induction afterCharacter line cs generalizing ds with
  | case1 =>
    obtain rfl := h.nil_left
    exact .none
  | case2 => cases h <;> exact .none
  | case3 =>
    obtain ⟨_, rfl, hrest⟩ := h.cons_left (by decide)
    exact .some ⟨rfl, hrest⟩
  | case4 line c cs ih =>
    obtain ⟨_, rfl, hrest⟩ := h.escape_left
    exact ih hrest
  | case5 line c cs hnewline hquote hescape ih =>
    obtain ⟨ds, rfl, hrest⟩ := h.cons_left hnewline
    rw [afterCharacter]
    · exact ih hrest
    · exact hnewline
    · exact hquote
    · rintro d es hc rfl
      cases cs with
      | nil => exact nomatch hrest
      | cons d cs => exact hescape d cs hc rfl

/-! ## Comments -/

/-- The text of a comment and what follows it, in two texts that differ in the ends of their
lines only. -/
def Parted (a b : List Char × List Char) : Prop := Returned a.1 b.1 ∧ Returned a.2 b.2

/-- One character more of a comment.  The comment goes on with a character of the text. -/
theorem parted_cons {c : Char} (hc : c ≠ '\r') (hslash : c = '\\' → ds.head? ≠ some '\r')
    {r r' : Option (List Char × List Char)} (h : Option.Rel Parted r r')
    (hhead : ∀ text rest, r' = some (text, rest) → text.head? = ds.head?) :
    Option.Rel Parted (r.map fun r => (c :: r.1, r.2)) (r'.map fun r => (c :: r.1, r.2)) := by
  cases h with
  | none => exact .none
  | @some a b h =>
    exact .some ⟨.cons hc (fun hc' => hhead b.1 b.2 rfl ▸ hslash hc') h.1, h.2⟩

theorem parted_sign {c d : Char} (hc : c ≠ '\r' ∧ c ≠ '\\') (hd : d ≠ '\r' ∧ d ≠ '\\')
    {r r' : Option (List Char × List Char)} (h : Option.Rel Parted r r') :
    Option.Rel Parted (r.map fun r => (c :: d :: r.1, r.2))
      (r'.map fun r => (c :: d :: r.1, r.2)) := by
  cases h with
  | none => exact .none
  | some h =>
    exact .some ⟨.cons hc.1 (fun he => absurd he hc.2)
      (.cons hd.1 (fun he => absurd he hd.2) h.1), h.2⟩

theorem parted_newline {r r' : Option (List Char × List Char)} (h : Option.Rel Parted r r') :
    Option.Rel Parted (r.map fun r => ('\n' :: r.1, r.2))
      (r'.map fun r => ('\r' :: '\n' :: r.1, r.2)) := by
  cases h with
  | none => exact .none
  | some h => exact .some ⟨.newline h.1, h.2⟩

/-- A comment begins with the text that it is read from. -/
theorem head_of_append {text rest cs : List Char} (hclosed : ∃ inner, text = inner ++ ['*', '/'])
    (h : text ++ rest = cs) : text.head? = cs.head? := by
  obtain ⟨inner, rfl⟩ := hclosed
  rw [← h]
  cases inner <;> rfl

theorem flatBlock_head {cs text rest : List Char} (h : flatBlock cs = some (text, rest)) :
    text.head? = cs.head? := head_of_append (flatBlock_closed h) (flatBlock_append h)

theorem nestedBlock_head {depth : Nat} {cs text rest : List Char}
    (h : nestedBlock depth cs = some (text, rest)) : text.head? = cs.head? :=
  head_of_append (nestedBlock_closed h) (nestedBlock_append h)

theorem flatBlock_parted (h : Returned cs ds) :
    Option.Rel Parted (flatBlock cs) (flatBlock ds) := by
  fun_induction flatBlock cs generalizing ds with
  | case1 =>
    obtain rfl := h.nil_left
    exact .none
  | case2 =>
    obtain ⟨_, rfl, hslash⟩ := h.cons_left (by decide)
    obtain ⟨_, rfl, hrest⟩ := hslash.cons_left (by decide)
    exact .some ⟨.refl (show '\r' ∉ ['*', '/'] by decide), hrest⟩
  | case3 c cs hopen ih =>
    cases h with
    | @cons _ _ ds hc hslash h =>
      rw [flatBlock]
      · exact parted_cons hc hslash (ih h) fun _ _ => flatBlock_head
      · rintro es hc rfl
        obtain ⟨_, rfl, -⟩ := h.cons_right (by decide)
        exact hopen _ hc rfl
    | newline h =>
      have hboth := parted_newline (ih h)
      rw [flatBlock, flatBlock, Option.map_map]
      · exact hboth
      · nofun
      · nofun

theorem nestedBlock_parted (depth : Nat) (h : Returned cs ds) :
    Option.Rel Parted (nestedBlock depth cs) (nestedBlock depth ds) := by
  fun_induction nestedBlock depth cs generalizing ds with
  | case1 =>
    obtain rfl := h.nil_left
    rw [nestedBlock]
    exact .none
  | case2 =>
    obtain ⟨_, rfl, hslash⟩ := h.cons_left (by decide)
    obtain ⟨_, rfl, hrest⟩ := hslash.cons_left (by decide)
    exact .some ⟨.refl (show '\r' ∉ ['*', '/'] by decide), hrest⟩
  | case3 depth cs ih =>
    obtain ⟨_, rfl, hslash⟩ := h.cons_left (by decide)
    obtain ⟨_, rfl, hrest⟩ := hslash.cons_left (by decide)
    exact parted_sign (by decide) (by decide) (ih hrest)
  | case4 depth cs ih =>
    obtain ⟨_, rfl, hstar⟩ := h.cons_left (by decide)
    obtain ⟨_, rfl, hrest⟩ := hstar.cons_left (by decide)
    rw [nestedBlock]
    exact parted_sign (by decide) (by decide) (ih hrest)
  | case5 depth c cs hlast hclose hopen ih =>
    cases h with
    | @cons _ _ ds hc hslash h =>
      rw [nestedBlock]
      · exact parted_cons hc hslash (ih h) fun _ _ => nestedBlock_head
      · rintro es hc rfl
        obtain ⟨_, rfl, -⟩ := h.cons_right (by decide)
        exact hopen _ hc rfl
      · rintro es hdepth hc rfl
        obtain ⟨_, rfl, -⟩ := h.cons_right (by decide)
        exact hlast _ hdepth hc rfl
      · rintro n es hdepth hc rfl
        obtain ⟨_, rfl, -⟩ := h.cons_right (by decide)
        exact hclose n _ hdepth hc rfl
    | newline h =>
      have hboth := parted_newline (ih h)
      rw [nestedBlock, nestedBlock, Option.map_map]
      · exact hboth
      all_goals nofun

theorem blockRest_parted (nested : Bool) (h : Returned cs ds) :
    Option.Rel Parted (blockRest nested cs) (blockRest nested ds) := by
  cases nested with
  | false => exact flatBlock_parted h
  | true => exact nestedBlock_parted 0 h

/-! ## Steps of the scanner -/

/-- Comments of the same kind on the same lines, that differ in the ends of their lines only. -/
structure Alike (c d : Comment) : Prop where
  kind : c.kind = d.kind
  startLine : c.startLine = d.startLine
  endLine : c.endLine = d.endLine
  text : Returned c.text d.text

inductive Item.Alike : Item → Item → Prop where
  | code : Item.Alike .code .code
  | comment {c d : Comment} (h : Source.Alike c d) : Item.Alike (.comment c) (.comment d)
  | opening (bracket : Char) : Item.Alike (.opening bracket) (.opening bracket)
  | closing (bracket : Char) : Item.Alike (.closing bracket) (.closing bracket)

structure Step.Alike (s t : Step) : Prop where
  item : s.item.Alike t.item
  line : s.line = t.line
  rest : Returned s.rest t.rest

/-- Two results are the same fault, or both are none and they are related. -/
inductive Agree {α : Type} (R : α → α → Prop) :
    Except SourceFault α → Except SourceFault α → Prop where
  | error (fault : SourceFault) : Agree R (.error fault) (.error fault)
  | ok {a b : α} (h : R a b) : Agree R (.ok a) (.ok b)

theorem agree_code (line : Nat) (h : Returned cs ds) :
    Agree Step.Alike (.ok ⟨.code, line, cs⟩) (.ok ⟨.code, line, ds⟩) := .ok ⟨.code, rfl, h⟩

theorem literal_agree (line : Nat) (problem : SourceProblem) {r r' : Option (Nat × List Char)}
    (h : Option.Rel Left r r') :
    Agree Step.Alike (literal line problem r) (literal line problem r') := by
  cases h with
  | none => exact .error _
  | @some a b h =>
    obtain ⟨hline, hrest⟩ := h
    exact .ok ⟨.code, hline, hrest⟩

theorem lineComment_alike (line : Nat) (h : Returned cs ds) :
    (lineComment line cs).Alike (lineComment line ds) := by
  obtain ⟨hsame, hreturn⟩ := h.line
  have htext {es : List Char} : Text.dropReturn ('/' :: '/' :: es) =
      '/' :: '/' :: Text.dropReturn es := by
    rw [Text.dropReturn_cons (by decide), Text.dropReturn_cons (by decide)]
  unfold lineComment
  simp only [htext, hsame, Text.dropReturn_eq_self hreturn]
  refine ⟨.comment ⟨rfl, rfl, rfl, .refl ?_⟩, rfl, h.behind_line⟩
  show '\r' ∉ '/' :: '/' :: cs.takeWhile (· != '\n')
  simpa using hreturn

/-- Two signs behind the opening tell documentation from other comments. -/
theorem blockKind_returned (h : Returned cs ds) :
    Comment.blockKind ('/' :: '*' :: cs) = Comment.blockKind ('/' :: '*' :: ds) := by
  cases h with
  | nil | newline => rfl
  | @cons c cs ds _ _ h =>
    by_cases hstar : c = '*'
    · subst hstar
      cases h with
      | nil | newline => rfl
      | @cons d cs ds _ _ h =>
        by_cases hstar : d = '*'
        · subst hstar
          rfl
        · cases h with
          | nil => rfl
          | cons | newline => simp [Comment.blockKind, hstar]
    · by_cases hbang : c = '!'
      · subst hbang
        rfl
      · have hblock (es : List Char) : Comment.blockKind ('/' :: '*' :: c :: es) = .block := by
          simp [Comment.blockKind, hstar, hbang]
        rw [hblock, hblock]

theorem blockComment_agree (nested : Bool) (line : Nat) (h : Returned cs ds) :
    Agree Step.Alike (blockComment nested line cs) (blockComment nested line ds) := by
  have hparted := blockRest_parted nested h
  unfold blockComment
  generalize blockRest nested cs = r at hparted
  generalize blockRest nested ds = r' at hparted
  cases hparted with
  | none => exact .error _
  | @some a b hparted =>
    obtain ⟨htext, hrest⟩ := hparted
    have hopening : Returned ('/' :: '*' :: a.1) ('/' :: '*' :: b.1) :=
      .cons (by decide) (by simp) (.cons (by decide) (by simp) htext)
    have hend : line + Text.newlines ('/' :: '*' :: a.1) =
        line + Text.newlines ('/' :: '*' :: b.1) := by rw [hopening.newlines_eq]
    exact .ok ⟨.comment ⟨blockKind_returned htext, rfl, hend, hopening⟩, hend, hrest⟩

/-- A quote in front of a line end opens no literal. -/
theorem characterOrLifetime_newline (line : Nat) (cs : List Char) :
    characterOrLifetime line ('\n' :: cs) = .ok ⟨.code, line, '\n' :: cs⟩ := by
  unfold characterOrLifetime
  split
  · rename_i h
    exact absurd (List.cons.inj h).1 (by decide)
  · rename_i c rest h
    exact if_pos (List.cons.inj h).1.symm
  · rfl

theorem characterOrLifetime_lifetime (line : Nat) (hescape : cs.head? ≠ some '\\')
    (hquote : cs.tail.head? ≠ some '\'') :
    characterOrLifetime line cs = .ok ⟨.code, line, cs⟩ := by
  unfold characterOrLifetime
  split
  · exact absurd rfl hescape
  · exact absurd rfl hquote
  · rfl

theorem characterOrLifetime_agree (line : Nat) (h : Returned cs ds) :
    Agree Step.Alike (characterOrLifetime line cs) (characterOrLifetime line ds) := by
  cases h with
  | nil => exact agree_code line .nil
  | newline h =>
    rw [characterOrLifetime_newline]
    exact agree_code line (.newline h)
  | @cons c cs ds hc hslash h =>
    by_cases hescape : c = '\\'
    · subst hescape
      exact literal_agree line .openCharacter (afterCharacter_left line (.cons hc hslash h))
    · by_cases hquote : cs.head? = some '\''
      · obtain ⟨cs, rfl⟩ := List.head?_eq_some_iff.mp hquote
        obtain ⟨ds, rfl, hrest⟩ := h.cons_left (by decide)
        rw [characterOrLifetime, characterOrLifetime]
        · split
          · exact agree_code line (.cons hc hslash h)
          · exact agree_code line hrest
        all_goals exact hescape
      · have hquote' : ds.head? ≠ some '\'' := by
          rwa [Ne, h.head_iff (by decide) (by decide)]
        have hhead (es : List Char) : (c :: es).head? ≠ some '\\' :=
          fun he => hescape (Option.some.inj he)
        rw [characterOrLifetime_lifetime line (hhead cs) hquote,
          characterOrLifetime_lifetime line (hhead ds) hquote']
        exact agree_code line (.cons hc hslash h)

theorem rawString_agree (line : Nat) (h : Returned cs ds) :
    Agree Step.Alike (rawString line cs) (rawString line ds) := by
  have hhashes := h.takeWhile (f := (· == '#')) (by decide) (by decide)
  have hrest := h.dropWhile (f := (· == '#')) (by decide) (by decide)
  unfold rawString
  simp only [drop_hashes, hhashes]
  rw [← hhashes, drop_hashes]
  generalize cs.dropWhile (· == '#') = es at hrest
  generalize ds.dropWhile (· == '#') = fs at hrest
  split
  · obtain ⟨_, rfl, hbehind⟩ := hrest.cons_left (by decide)
    exact literal_agree line .openRaw (afterRaw_left _ line hbehind)
  · rename_i hquote
    split
    · obtain ⟨_, rfl, -⟩ := hrest.cons_right (by decide)
      exact absurd rfl (hquote _)
    · exact .error _

theorem identifier_agree (line : Nat) (c : Char) (h : Returned cs ds) :
    Agree Step.Alike (identifier line c cs) (identifier line c ds) := by
  have hrest := h.dropWhile (f := Text.isNameChar) (by decide) (by decide)
  have hraw := rawString_agree line hrest
  unfold identifier
  simp only [h.takeWhile (f := Text.isNameChar) (by decide) (by decide)]
  generalize cs.dropWhile Text.isNameChar = es at hrest hraw
  generalize ds.dropWhile Text.isNameChar = fs at hrest hraw
  split
  · -- the sign behind a name that announces a raw literal decides what it announces
    split
    · obtain ⟨_, rfl, -⟩ := hrest.cons_left (by decide)
      exact hraw
    · obtain ⟨_, rfl, hafter⟩ := hrest.cons_left (by decide)
      cases hafter with
      | nil => exact hraw
      | newline h => exact agree_code line (.newline h)
      | cons hc hslash h =>
        simp only
        split
        · exact hraw
        · exact agree_code line (.cons hc hslash h)
    · rename_i hquote hhash
      split
      · obtain ⟨_, rfl, -⟩ := hrest.cons_right (by decide)
        exact absurd rfl (hquote _)
      · obtain ⟨_, rfl, -⟩ := hrest.cons_right (by decide)
        exact absurd rfl (hhash _)
      · exact agree_code line hrest
  · exact agree_code line hrest

theorem step_agree (nested : Bool) (line : Nat) (c : Char) (h : Returned cs ds) :
    Agree Step.Alike (step nested line c cs) (step nested line c ds) := by
  rw [step.eq_def nested line c cs]
  split
  · obtain ⟨_, rfl, hrest⟩ := h.cons_left (by decide)
    exact .ok (lineComment_alike line hrest)
  · obtain ⟨_, rfl, hrest⟩ := h.cons_left (by decide)
    exact blockComment_agree nested line hrest
  · exact literal_agree line .openString (afterString_left line h)
  · exact characterOrLifetime_agree line h
  · obtain ⟨_, rfl, hrest⟩ := h.cons_left (by decide)
    exact literal_agree line .openVerbatim (afterVerbatim_left line hrest)
  · exact .ok ⟨.opening _, rfl, h⟩
  · exact .ok ⟨.opening _, rfl, h⟩
  · exact .ok ⟨.opening _, rfl, h⟩
  · exact .ok ⟨.closing _, rfl, h⟩
  · exact .ok ⟨.closing _, rfl, h⟩
  · exact .ok ⟨.closing _, rfl, h⟩
  · rename_i hline hblock hverbatim
    rw [step]
    · split
      · exact identifier_agree line c h
      · split
        · exact agree_code line (h.dropWhile (f := isNumberChar) (by decide) (by decide))
        · exact agree_code _ h
    any_goals assumption
    · rintro rest hc rfl
      obtain ⟨_, rfl, -⟩ := h.cons_right (by decide)
      exact hline _ hc rfl
    · rintro rest hc rfl
      obtain ⟨_, rfl, -⟩ := h.cons_right (by decide)
      exact hblock _ hc rfl
    · rintro rest hc rfl
      obtain ⟨_, rfl, -⟩ := h.cons_right (by decide)
      exact hverbatim _ hc rfl

/-! ## The whole source -/

theorem scanFrom_newline (nested : Bool) (line : Nat) (opened : List (Char × Nat))
    (cs : List Char) :
    scanFrom nested line opened ('\n' :: cs) = scanFrom nested (line + 1) opened cs :=
  scanFrom_cons nested line opened '\n' cs

theorem scanFrom_return (nested : Bool) (line : Nat) (opened : List (Char × Nat))
    (cs : List Char) :
    scanFrom nested line opened ('\r' :: cs) = scanFrom nested line opened cs :=
  scanFrom_cons nested line opened '\r' cs

/-- One comment more. -/
theorem agree_cons {c d : Comment} (h : Alike c d) {r r' : Except SourceFault (List Comment)}
    (hrest : Agree (List.Forall₂ Alike) r r') :
    Agree (List.Forall₂ Alike) (r.map (c :: ·)) (r'.map (d :: ·)) := by
  cases hrest with
  | error fault => exact .error fault
  | ok hrest => exact .ok (.cons h hrest)

/-- The scanner finds the same comments on the same lines, or the same fault. -/
theorem scanFrom_agree (nested : Bool) (line : Nat) (opened : List (Char × Nat))
    (h : Returned cs ds) :
    Agree (List.Forall₂ Alike) (scanFrom nested line opened cs)
      (scanFrom nested line opened ds) := by
  induction hn : cs.length using Nat.strongRecOn generalizing line opened cs ds with
  | _ n ih =>
    subst hn
    cases h with
    | nil =>
      cases opened with
      | nil =>
        rw [scanFrom]
        exact .ok .nil
      | cons =>
        rw [scanFrom]
        exact .error _
    | newline h =>
      rw [scanFrom_newline, scanFrom_return, scanFrom_newline]
      exact ih _ (Nat.lt_succ_self _) (line + 1) opened h rfl
    | @cons c cs ds hc hslash h =>
      rw [scanFrom_cons, scanFrom_cons]
      have hagree := step_agree nested line c h
      have hlength {s : Step} (hs : step nested line c cs = .ok s) :
          s.rest.length < (c :: cs).length := Nat.lt_succ_of_le (step_suffix hs).length_le
      generalize step nested line c cs = r at hagree hlength
      generalize step nested line c ds = r' at hagree
      cases hagree with
      | error fault => exact .error fault
      | @ok s t halike =>
        obtain ⟨item, after, rest⟩ := s
        obtain ⟨item', after', rest'⟩ := t
        obtain ⟨hitem, rfl, hrest⟩ := halike
        have hrec (opened : List (Char × Nat)) := ih _ (hlength rfl) after opened hrest rfl
        cases hitem with
        | code => exact hrec opened
        | opening bracket => exact hrec _
        | comment hcomment => exact agree_cons hcomment (hrec opened)
        | closing bracket =>
          show Agree _
            (closeBracket line bracket opened >>= fun outer => scanFrom nested after outer rest)
            (closeBracket line bracket opened >>= fun outer => scanFrom nested after outer rest')
          cases closeBracket line bracket opened with
          | error fault => exact .error fault
          | ok outer => exact hrec outer

end Source
end CheckScript
