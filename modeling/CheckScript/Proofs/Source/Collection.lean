/-
The tags of a text, line by line.

Of the texts between two neighbouring signs of a line the last that is not empty gives the tag
of the line (`HasTag`).  The reader finds it by cutting the line into pieces; `tagOfLine_eq_some`
says that both are the same.  The map of a text then has one entry for each tag, and it fails at
the first line whose tag a line before it has (`ofText_exact`).
-/
import CheckScript.Proofs.Source.Tags

namespace CheckScript

/-! ## The tag of a line -/

/-- `name` stands between two signs of the line that are neighbours, and is not empty. -/
structure Enclosed (line before name after : List Char) : Prop where
  line_eq : line = before ++ '@' :: (name ++ '@' :: after)
  nonempty : name ≠ []
  neighbours : '@' ∉ name

/-- The line has this tag: of all names between neighbouring signs it is the one with the most
in front of it. -/
def HasTag (line : List Char) (tag : String) : Prop :=
  ∃ before name after, Enclosed line before name after ∧
    (∀ b n a, Enclosed line b n a → b.length ≤ before.length) ∧ tag = tagName name

theorem Enclosed.pieces {line before name after : List Char} (h : Enclosed line before name after) :
    ∃ front, enclosedPieces line = front ++ name :: enclosedPieces ('@' :: after) := by
  obtain ⟨first, pieces, hbefore⟩ := List.exists_cons_of_ne_nil (Text.cut_ne_nil '@' before)
  refine ⟨pieces, ?_⟩
  have hcut : Text.cut '@' line = first :: (pieces ++ name :: Text.cut '@' after) := by
    rw [h.line_eq, Text.cut_append_cons, Text.cut_append_sep h.neighbours, hbefore]
    rfl
  have hafter := Text.cut_ne_nil '@' after
  rw [enclosedPieces_of_cut hcut, enclosedPieces_of_cut (Text.cut_sep '@' after),
    List.dropLast_append_of_ne_nil (List.cons_ne_nil _ _), List.dropLast_cons_of_ne_nil hafter]

/-- A piece between two others is followed by a separator. -/
theorem cut_eq_cons_cons {sep : Char} {cs p q : List Char} {ps : List (List Char)}
    (h : Text.cut sep cs = p :: q :: ps) :
    ∃ rest, cs = p ++ sep :: rest ∧ sep ∉ p ∧ Text.cut sep rest = q :: ps := by
  have hp : sep ∉ p := Text.not_mem_of_mem_cut (h ▸ List.mem_cons_self)
  suffices hcs : ∃ rest, cs = p ++ sep :: rest by
    obtain ⟨rest, rfl⟩ := hcs
    rw [Text.cut_append_sep hp] at h
    exact ⟨rest, rfl, hp, (List.cons.inj h).2⟩
  induction cs generalizing p with
  | nil => cases h
  | cons c cs ih =>
    by_cases hc : c = sep
    · subst hc
      rw [Text.cut_sep] at h
      obtain ⟨rfl, -⟩ := List.cons.inj h
      exact ⟨cs, rfl⟩
    · obtain ⟨first, pieces, hcut, hcons⟩ := Text.cut_cons hc cs
      rw [hcons] at h
      obtain ⟨rfl, hpieces⟩ := List.cons.inj h
      rw [hpieces] at hcut
      obtain ⟨rest, rfl⟩ := ih hcut (Text.not_mem_of_mem_cut (hcut ▸ List.mem_cons_self))
      exact ⟨rest, rfl⟩

/-- Every piece but the first and the last stands between two separators. -/
theorem exists_of_cut {sep : Char} {cs first p q : List Char} {front behind : List (List Char)}
    (h : Text.cut sep cs = first :: (front ++ p :: q :: behind)) :
    ∃ before after, cs = before ++ sep :: (p ++ sep :: after) ∧ sep ∉ p ∧
      Text.cut sep after = q :: behind := by
  induction front generalizing cs first with
  | nil =>
    obtain ⟨rest, rfl, -, hrest⟩ := cut_eq_cons_cons h
    obtain ⟨after, rfl, hp, hafter⟩ := cut_eq_cons_cons hrest
    exact ⟨first, after, rfl, hp, hafter⟩
  | cons next front ih =>
    obtain ⟨rest, rfl, -, hrest⟩ := cut_eq_cons_cons h
    obtain ⟨before, after, rfl, hp, hafter⟩ := ih hrest
    refine ⟨first ++ sep :: before, after, ?_, hp, hafter⟩
    rw [List.append_assoc, List.cons_append]

/-- The pieces behind an enclosed one are those of the rest of the line from its second sign
on. -/
theorem exists_of_enclosedPieces {line name : List Char} {front behind : List (List Char)}
    (h : enclosedPieces line = front ++ name :: behind) :
    ∃ before after, line = before ++ '@' :: (name ++ '@' :: after) ∧ '@' ∉ name ∧
      enclosedPieces ('@' :: after) = behind := by
  obtain ⟨first, pieces, hcut⟩ := List.exists_cons_of_ne_nil (Text.cut_ne_nil '@' line)
  rw [enclosedPieces_of_cut hcut] at h
  rcases List.eq_nil_or_concat pieces with rfl | ⟨inner, last, rfl⟩
  · exact absurd h.symm (List.append_ne_nil_of_right_ne_nil front (List.cons_ne_nil name behind))
  rw [List.concat_eq_append, List.dropLast_concat] at h
  obtain ⟨q, qs, hq⟩ := List.exists_cons_of_ne_nil
    (List.append_ne_nil_of_right_ne_nil behind (List.cons_ne_nil last []))
  have hsplit : Text.cut '@' line = first :: (front ++ name :: q :: qs) := by
    rw [hcut, List.concat_eq_append, h, List.append_assoc, List.cons_append, hq]
  obtain ⟨before, after, hline, hname, hafter⟩ := exists_of_cut hsplit
  refine ⟨before, after, hline, hname, ?_⟩
  rw [enclosedPieces_of_cut (Text.cut_sep '@' after), hafter, ← hq, List.dropLast_concat]

/-- A name that has more in front of it stands behind the second sign. -/
theorem Enclosed.behind {line before name after b n a : List Char}
    (h : Enclosed line before name after) (hother : Enclosed line b n a)
    (hlength : before.length < b.length) : ∃ front, Enclosed ('@' :: after) front n a := by
  have heq := h.line_eq.symm.trans hother.line_eq
  rcases List.append_eq_append_iff.mp heq with ⟨rest, rfl, hrest⟩ | ⟨rest, rfl, -⟩
  · cases rest with
    | nil => simp at hlength
    | cons sign rest =>
      obtain ⟨rfl, hname⟩ := List.cons.inj hrest
      rcases List.append_eq_append_iff.mp hname with ⟨front, -, hafter⟩ | ⟨rest', hname, hafter⟩
      · exact ⟨front, hafter, hother.nonempty, hother.neighbours⟩
      · cases rest' with
        | nil => exact ⟨[], hafter.symm, hother.nonempty, hother.neighbours⟩
        | cons sign rest' =>
          -- the first sign of the other pair would stand in the name
          obtain ⟨rfl, -⟩ := List.cons.inj hafter
          exact absurd (hname ▸ List.mem_append_right _ List.mem_cons_self) h.neighbours
  · simp only [List.length_append] at hlength
    omega

/-- The last element with a property has it, and none behind has. -/
theorem getLast?_filter_eq_some {α : Type} {p : α → Bool} {as : List α} {a : α} :
    (as.filter p).getLast? = some a ↔
      p a = true ∧ ∃ front behind, as = front ++ a :: behind ∧ ∀ b ∈ behind, (!p b) = true := by
  rw [List.getLast?_filter, List.find?_eq_some_iff_append]
  refine and_congr_right fun _ => ⟨?_, ?_⟩
  · rintro ⟨behind, front, has, hbehind⟩
    refine ⟨front.reverse, behind.reverse, ?_, fun b hb => hbehind b (List.mem_reverse.mp hb)⟩
    rw [← List.reverse_reverse as, has, List.reverse_append, List.reverse_cons, List.append_assoc]
    rfl
  · rintro ⟨front, behind, rfl, hbehind⟩
    refine ⟨behind.reverse, front.reverse, ?_, fun b hb => hbehind b (List.mem_reverse.mp hb)⟩
    rw [List.reverse_append, List.reverse_cons, List.append_assoc]
    rfl

/-- The reader finds the tag of a line. -/
theorem tagOfLine_eq_some {line : List Char} {tag : String} :
    tagOfLine line = some tag ↔ HasTag line tag := by
  unfold tagOfLine
  rw [Option.map_eq_some_iff]
  constructor
  · rintro ⟨name, hlast, rfl⟩
    obtain ⟨hname, front, behind, hpieces, hbehind⟩ := getLast?_filter_eq_some.mp hlast
    obtain ⟨before, after, hline, hneighbours, hafter⟩ := exists_of_enclosedPieces hpieces
    have henclosed : Enclosed line before name after :=
      ⟨hline, by simpa using hname, hneighbours⟩
    refine ⟨before, name, after, henclosed, fun b n a hother => ?_, rfl⟩
    by_contra hlonger
    obtain ⟨_, hlater⟩ := henclosed.behind hother (Nat.lt_of_not_le hlonger)
    obtain ⟨_, hpieces'⟩ := hlater.pieces
    have hn := hbehind n (hafter ▸ hpieces' ▸ List.mem_append_right _ List.mem_cons_self)
    exact hlater.nonempty (by simpa using hn)
  · rintro ⟨before, name, after, henclosed, hmost, rfl⟩
    obtain ⟨front, hpieces⟩ := henclosed.pieces
    refine ⟨name, getLast?_filter_eq_some.mpr ⟨?_, front, _, hpieces, fun piece hmem => ?_⟩, rfl⟩
    · simpa using henclosed.nonempty
    · by_contra hpiece
      obtain ⟨ps, qs, hsplit⟩ := List.append_of_mem hmem
      obtain ⟨b, a, hb, hneighbours, -⟩ := exists_of_enclosedPieces hsplit
      have hline : line = (before ++ '@' :: (name ++ b)) ++ '@' :: (piece ++ '@' :: a) := by
        rw [henclosed.line_eq, hb]
        simp only [List.append_assoc, List.cons_append]
      have hlonger := hmost _ piece a ⟨hline, by simpa using hpiece, hneighbours⟩
      rw [List.length_append, List.length_cons] at hlonger
      omega

example : tagOfLine "@a@ b @@c@".toList = some "c" := by decide +kernel

theorem HasTag.unique {line : List Char} {tag other : String} (h : HasTag line tag)
    (hother : HasTag line other) : tag = other :=
  Option.some.inj ((tagOfLine_eq_some.mpr h).symm.trans (tagOfLine_eq_some.mpr hother))

/-! ## The tags of a text -/

namespace LineTags

theorem mem_tagsFrom {line n : Nat} {tag : String} {ls : List (List Char)} :
    (tag, n) ∈ tagsFrom line ls ↔
      ∃ i l, n = line + i ∧ ls[i]? = some l ∧ HasTag l tag := by
  induction ls generalizing line with
  | nil => simp [tagsFrom]
  | cons l ls ih =>
    rw [tagsFrom, List.mem_append, ih]
    constructor
    · rintro (hfirst | ⟨i, k, rfl, hk, htag⟩)
      · obtain ⟨tag, htag, heq⟩ := List.mem_map.mp hfirst
        obtain ⟨rfl, rfl⟩ := Prod.mk.inj heq
        exact ⟨0, l, rfl, rfl, tagOfLine_eq_some.mp (Option.mem_toList.mp htag)⟩
      · exact ⟨i + 1, k, by omega, hk, htag⟩
    · rintro ⟨i, k, rfl, hk, htag⟩
      cases i with
      | zero =>
        obtain rfl := Option.some.inj hk
        refine .inl (List.mem_map.mpr ⟨tag, ?_, rfl⟩)
        exact Option.mem_toList.mpr (tagOfLine_eq_some.mpr htag)
      | succ i => exact .inr ⟨i, k, by omega, hk, htag⟩

/-- The lines come in their order. -/
theorem tagsFrom_sorted (line : Nat) (ls : List (List Char)) :
    (tagsFrom line ls).Pairwise fun a b => a.2 < b.2 := by
  induction ls generalizing line with
  | nil => exact .nil
  | cons l ls ih =>
    rw [tagsFrom]
    refine List.pairwise_append.mpr ⟨?_, ih (line + 1), fun a ha b hb => ?_⟩
    · cases tagOfLine l with
      | none => exact .nil
      | some tag => exact List.pairwise_singleton ..
    · obtain ⟨tag, -, rfl⟩ := List.mem_map.mp ha
      obtain ⟨i, _, hline, -⟩ := mem_tagsFrom.mp hb
      omega

/-- A tag comes into the map only if it is not there yet. -/
theorem insert_nodup {t : LineTags} {tag : String} (hkeys : (t.entries.map Prod.fst).Nodup)
    (hget : t.get? tag = none) (line : Nat) :
    ((t.insert tag line).entries.map Prod.fst).Nodup :=
  ((place_perm tag line t.entries).map Prod.fst).nodup_iff.mpr
    (List.nodup_cons.mpr ⟨find?_eq_none.mp hget, hkeys⟩)

/-- Reading comes to the end of the lines only if no tag has been met before. -/
theorem addLines_ok {t t' : LineTags} {line : Nat} {ls : List (List Char)}
    (hkeys : (t.entries.map Prod.fst).Nodup) (h : addLines t line ls = .ok t') :
    ((tagsFrom line ls ++ t.entries).map Prod.fst).Nodup := by
  induction ls generalizing t line with
  | nil => exact hkeys
  | cons l ls ih =>
    rw [addLines] at h
    cases htag : tagOfLine l with
    | none =>
      simp only [htag] at h
      rw [tagsFrom_of_none htag]
      exact ih hkeys h
    | some tag =>
      simp only [htag] at h
      cases hget : t.get? tag with
      | some first =>
        simp only [hget] at h
        cases h
      | none =>
        simp only [hget] at h
        exact ((insert_perm htag t line ls).map Prod.fst).nodup_iff.mp
          (ih (insert_nodup hkeys hget line) h)

/-- Reading stops at a line whose tag has been met before, and at the first such line. -/
theorem addLines_error {t : LineTags} {line : Nat} {ls : List (List Char)} {e : DuplicateTag}
    (hkeys : (t.entries.map Prod.fst).Nodup) (h : addLines t line ls = .error e) :
    ∃ before l after, ls = before ++ l :: after ∧ e.second = line + before.length ∧
      HasTag l e.tag ∧ (e.tag, e.first) ∈ tagsFrom line before ++ t.entries ∧
      ((tagsFrom line before ++ t.entries).map Prod.fst).Nodup := by
  induction ls generalizing t line with
  | nil => cases h
  | cons l ls ih =>
    rw [addLines] at h
    cases htag : tagOfLine l with
    | none =>
      simp only [htag] at h
      obtain ⟨before, k, after, rfl, hsecond, hk, hfirst, hnodup⟩ := ih hkeys h
      rw [← tagsFrom_of_none htag line before] at hfirst hnodup
      refine ⟨l :: before, k, after, rfl, ?_, hk, hfirst, hnodup⟩
      rw [hsecond, List.length_cons]
      omega
    | some tag =>
      simp only [htag] at h
      cases hget : t.get? tag with
      | some first =>
        simp only [hget] at h
        obtain rfl := Except.error.inj h
        exact ⟨[], l, ls, rfl, rfl, tagOfLine_eq_some.mp htag, mem_of_find? hget, hkeys⟩
      | none =>
        simp only [hget] at h
        obtain ⟨before, k, after, rfl, hsecond, hk, hfirst, hnodup⟩ :=
          ih (insert_nodup hkeys hget line) h
        have hmoved := insert_perm htag t line before
        refine ⟨l :: before, k, after, rfl, ?_, hk, hmoved.mem_iff.mp hfirst,
          (hmoved.map Prod.fst).nodup_iff.mp hnodup⟩
        rw [hsecond, List.length_cons]
        omega

end LineTags

/-- Line number `n` of the text, counted from 1, has the tag. -/
def TagAt (text : String) (n : Nat) (tag : String) : Prop :=
  ∃ i line, n = 1 + i ∧ (Text.lineChars text.toList)[i]? = some line ∧ HasTag line tag

theorem TagAt.unique {text : String} {n : Nat} {tag other : String} (h : TagAt text n tag)
    (hother : TagAt text n other) : tag = other := by
  obtain ⟨i, line, rfl, hline, htag⟩ := h
  obtain ⟨j, line', hj, hline', htag'⟩ := hother
  obtain rfl : i = j := by omega
  obtain rfl := Option.some.inj (hline.symm.trans hline')
  exact htag.unique htag'

/-- The second line is the first of the text that repeats a tag, and the first line is the one
that had the tag before. -/
structure Repeats (text : String) (e : DuplicateTag) : Prop where
  first : TagAt text e.first e.tag
  second : TagAt text e.second e.tag
  order : e.first < e.second
  earliest : ∀ m n tag, TagAt text m tag → TagAt text n tag → m < n → e.second ≤ n

theorem Repeats.unique {text : String} {e f : DuplicateTag} (he : Repeats text e)
    (hf : Repeats text f) : e = f := by
  obtain ⟨tag, first, second⟩ := e
  obtain ⟨tag', first', second'⟩ := f
  have hsecond : second = second' := Nat.le_antisymm
    (he.earliest _ _ _ hf.first hf.second hf.order)
    (hf.earliest _ _ _ he.first he.second he.order)
  subst hsecond
  obtain rfl : tag = tag' := he.second.unique hf.second
  have hfirst : first = first' := by
    by_contra hne
    rcases Nat.lt_or_gt_of_ne hne with hlt | hlt
    · exact absurd (he.earliest _ _ _ he.first hf.first hlt) (Nat.not_le_of_lt hf.order)
    · exact absurd (hf.earliest _ _ _ hf.first he.first hlt) (Nat.not_le_of_lt he.order)
  rw [hfirst]

namespace LineTags

/-- Names differ exactly if no two lines share one. -/
theorem nodup_iff_lines {line : Nat} {ls : List (List Char)} :
    ((tagsFrom line ls).map Prod.fst).Nodup ↔
      ∀ m n tag, (tag, m) ∈ tagsFrom line ls → (tag, n) ∈ tagsFrom line ls → m = n := by
  constructor
  · intro h m n tag hm hn
    exact Option.some.inj ((find?_of_mem h hm).symm.trans (find?_of_mem h hn))
  · intro h
    refine List.pairwise_map.mpr ?_
    refine (tagsFrom_sorted line ls).imp_of_mem fun {a b} ha hb hlt hname => ?_
    have hb' : (a.1, b.2) ∈ tagsFrom line ls := by
      rw [hname]
      exact hb
    exact absurd (h a.2 b.2 a.1 ha hb') (Nat.ne_of_lt hlt)

theorem mem_tags {text : String} {n : Nat} {tag : String} :
    (tag, n) ∈ tagsFrom 1 (Text.lineChars text.toList) ↔ TagAt text n tag :=
  mem_tagsFrom

theorem empty_nodup : (empty.entries.map Prod.fst).Nodup := List.nodup_nil

theorem ofText_ok {text : String} {t : LineTags} (h : ofText text = .ok t) :
    (t.entries.map Prod.fst).Nodup ∧ ∀ tag n, (tag, n) ∈ t.entries ↔ TagAt text n tag := by
  have hnodup := addLines_ok empty_nodup h
  obtain ⟨t', ht', hperm⟩ := addLines_perm hnodup
  obtain rfl : t' = t := Except.ok.inj (ht'.symm.trans h)
  rw [show empty.entries = [] from rfl, List.append_nil] at hnodup hperm
  exact ⟨(hperm.map Prod.fst).nodup_iff.mpr hnodup, fun tag n => hperm.mem_iff.trans mem_tags⟩

theorem ofText_error {text : String} {e : DuplicateTag} (h : ofText text = .error e) :
    Repeats text e := by
  obtain ⟨before, l, after, hlines, hsecond, htag, hfirst, hnodup⟩ :=
    addLines_error empty_nodup h
  rw [show empty.entries = [] from rfl, List.append_nil] at hfirst hnodup
  obtain ⟨i, k, hi, hk, hktag⟩ := mem_tagsFrom.mp hfirst
  obtain ⟨hlt, -⟩ := List.getElem?_eq_some_iff.mp hk
  have hbefore {j : Nat} (hj : j < before.length) :
      (Text.lineChars text.toList)[j]? = before[j]? := by
    rw [hlines, List.getElem?_append_left hj]
  refine ⟨⟨i, k, hi, (hbefore hlt).trans hk, hktag⟩, ⟨before.length, l, hsecond, ?_, htag⟩, ?_, ?_⟩
  · rw [hlines, List.getElem?_append_right (Nat.le_refl _), Nat.sub_self]
    rfl
  · omega
  · rintro m n tag ⟨i, k, rfl, hk, hktag⟩ ⟨j, k', rfl, hk', hktag'⟩ hmn
    by_contra hearly
    rw [hbefore (by omega)] at hk hk'
    have heq := nodup_iff_lines.mp hnodup _ _ tag (mem_tagsFrom.mpr ⟨i, k, rfl, hk, hktag⟩)
      (mem_tagsFrom.mpr ⟨j, k', rfl, hk', hktag'⟩)
    omega

/-- Collecting tags succeeds exactly if no two lines have the same tag.  The map then has each
tag with the number of its line and nothing else.  Otherwise the fault names the first line that
repeats a tag, and the line that had it before. -/
theorem ofText_exact (text : String) :
    ((∃ t, ofText text = .ok t) ↔
      ∀ m n tag, TagAt text m tag → TagAt text n tag → m = n) ∧
    (∀ t, ofText text = .ok t → (t.entries.map Prod.fst).Nodup ∧
      ∀ tag n, ((tag, n) ∈ t.entries ↔ TagAt text n tag) ∧
        (t.get? tag = some n ↔ TagAt text n tag)) ∧
    ∀ e, ofText text = .error e ↔ Repeats text e := by
  have hlookup {t : LineTags} (h : ofText text = .ok t) (tag : String) (n : Nat) :
      t.get? tag = some n ↔ TagAt text n tag := by
    obtain ⟨hnodup, hmem⟩ := ofText_ok h
    rw [← hmem]
    exact ⟨mem_of_find?, find?_of_mem hnodup⟩
  refine ⟨⟨?_, fun h => ?_⟩, fun t h => ?_, fun e => ⟨ofText_error, fun h => ?_⟩⟩
  · rintro ⟨t, h⟩ m n tag hm hn
    exact Option.some.inj (((hlookup h tag m).mpr hm).symm.trans ((hlookup h tag n).mpr hn))
  · cases htext : ofText text with
    | ok t => exact ⟨t, rfl⟩
    | error e =>
      have hrepeats := ofText_error htext
      exact absurd (h _ _ _ hrepeats.first hrepeats.second) (Nat.ne_of_lt hrepeats.order)
  · exact ⟨(ofText_ok h).1, fun tag n => ⟨(ofText_ok h).2 tag n, hlookup h tag n⟩⟩
  · cases htext : ofText text with
    | ok t =>
      have hfirst := (hlookup htext _ _).mpr h.first
      have hsecond := (hlookup htext _ _).mpr h.second
      exact absurd (Option.some.inj (hfirst.symm.trans hsecond)) (Nat.ne_of_lt h.order)
    | error f => rw [(ofText_error htext).unique h]

end LineTags
end CheckScript
