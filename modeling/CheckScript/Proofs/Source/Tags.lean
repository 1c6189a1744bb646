/-
Line tags and the markers that they are read from.

A line gives one tag at most, that of its last marker.  So all markers of a text are in the map
exactly if no line has two of them (`markers_complete_iff`).  The map itself is known by its
entries up to their order (`addLines_perm`): the order of the names says nothing about lines.
-/
import CheckScript.Proofs.Decision
import CheckScript.Proofs.Text.Lines
import CheckScript.Source.Tags
import Mathlib.Data.List.Forall2

namespace CheckScript

/-! ## Markers of a line -/

/-- The signs of the line pair off from the left into markers with these names. -/
inductive Marked : List Char → List (List Char) → Prop where
  | plain {line : List Char} (h : '@' ∉ line) : Marked line []
  | marker {before name rest : List Char} {names : List (List Char)} (hbefore : '@' ∉ before)
      (hname : '@' ∉ name) (hblank : name.all Text.isBlank = false) (h : Marked rest names) :
      Marked (before ++ '@' :: (name ++ '@' :: rest)) (name :: names)

def tagName (name : List Char) : String := String.ofList (Text.trimChars name)

/-- The pieces behind the first sign of a line are, but for the last, enclosed by signs. -/
theorem enclosedPieces_of_cut {line first : List Char} {pieces : List (List Char)}
    (h : Text.cut '@' line = first :: pieces) : enclosedPieces line = pieces.dropLast := by
  rw [enclosedPieces, h]
  rfl

theorem Marked.cut_ne_nil {line : List Char} {names : List (List Char)} (h : Marked line names)
    (hnames : names ≠ []) : ∃ first piece pieces, Text.cut '@' line = first :: piece :: pieces := by
  cases h with
  | plain => exact absurd rfl hnames
  | @marker before name rest names hbefore hname hblank h =>
    refine ⟨before, name, Text.cut '@' rest, ?_⟩
    rw [Text.cut_append_sep hbefore, Text.cut_append_sep hname]

/-- Between two markers there may be a gap, which is enclosed as the names are, but a name
follows it. -/
theorem Marked.getLast?_enclosed {line : List Char} {names : List (List Char)}
    (h : Marked line names) :
    ((enclosedPieces line).filter (! ·.isEmpty)).getLast? = names.getLast? := by
  induction h with
  | plain h =>
    rw [enclosedPieces_of_cut (Text.cut_of_not_mem h)]
    rfl
  | @marker before name rest names hbefore hname hblank h ih =>
    have hnonempty : (!name.isEmpty) = true := by
      cases name with
      | nil => cases hblank
      | cons => rfl
    have hcut : Text.cut '@' (before ++ '@' :: (name ++ '@' :: rest)) =
        before :: name :: Text.cut '@' rest := by
      rw [Text.cut_append_sep hbefore, Text.cut_append_sep hname]
    rw [enclosedPieces_of_cut hcut]
    by_cases hnames : names = []
    · subst hnames
      cases h with
      | plain h => simp [Text.cut_of_not_mem h, hnonempty]
    · obtain ⟨gap, piece, pieces, hrest⟩ := h.cut_ne_nil hnames
      rw [enclosedPieces_of_cut hrest] at ih
      obtain ⟨last, hlast⟩ := Option.ne_none_iff_exists'.mp
        (fun hnone => hnames (List.getLast?_eq_none_iff.mp hnone))
      have hsplit : (name :: Text.cut '@' rest).dropLast =
          [name, gap] ++ (piece :: pieces).dropLast := by
        rw [hrest]
        rfl
      have hends : (name :: names).getLast? = some last := by
        rw [List.getLast?_cons, hlast]
        rfl
      rw [hsplit, List.filter_append, List.getLast?_append, ih, hlast, hends, Option.some_or]

/-- A line has the tag of its last marker. -/
theorem Marked.tagOfLine {line : List Char} {names : List (List Char)} (h : Marked line names) :
    tagOfLine line = names.getLast?.map tagName := by
  rw [CheckScript.tagOfLine, h.getLast?_enclosed]
  rfl

/-- The markers of lines with their names, the first line with the number `line`. -/
def markersFrom (line : Nat) : List (List (List Char)) → List (String × Nat)
  | [] => []
  | names :: lines => names.map (fun name => (tagName name, line)) ++ markersFrom (line + 1) lines

/-- The last marker of each line. -/
def lastMarkers (lines : List (List (List Char))) : List (List (List Char)) :=
  lines.map fun names => names.getLast?.toList

theorem toList_getLast?_sublist {α : Type} (as : List α) : as.getLast?.toList.Sublist as := by
  cases h : as.getLast? with
  | none => exact List.nil_sublist as
  | some a => exact List.singleton_sublist.mpr (List.mem_of_getLast? h)

theorem markersFrom_last_sublist (line : Nat) (lines : List (List (List Char))) :
    (markersFrom line (lastMarkers lines)).Sublist (markersFrom line lines) := by
  induction lines generalizing line with
  | nil => exact List.Sublist.refl []
  | cons names lines ih =>
    have hnames := (toList_getLast?_sublist names).map fun name => (tagName name, line)
    exact hnames.append (ih (line + 1))

theorem lastMarkers_of_short {lines : List (List (List Char))}
    (h : ∀ names ∈ lines, names.length ≤ 1) : lastMarkers lines = lines := by
  have hself : ∀ names ∈ lines, names.getLast?.toList = names := by
    intro names hnames
    have hlength := h names hnames
    match names with
    | [] | [_] => rfl
    | _ :: _ :: _ =>
      simp only [List.length_cons] at hlength
      omega
  exact (List.map_congr_left hself).trans (List.map_id lines)

/-- A line with several markers is one entry short of them at least. -/
theorem short_of_length_eq {line : Nat} {lines : List (List (List Char))}
    (h : (markersFrom line (lastMarkers lines)).length = (markersFrom line lines).length) :
    ∀ names ∈ lines, names.length ≤ 1 := by
  induction lines generalizing line with
  | nil => exact fun _ hnames => nomatch hnames
  | cons names lines ih =>
    have hfirst : names.getLast?.toList.length ≤ 1 := by
      cases names.getLast? with
      | none => exact Nat.zero_le 1
      | some => exact Nat.le_refl 1
    have hnames := (toList_getLast?_sublist names).length_le
    have hlines := (markersFrom_last_sublist (line + 1) lines).length_le
    have hsum : names.getLast?.toList.length +
        (markersFrom (line + 1) (lastMarkers lines)).length =
          names.length + (markersFrom (line + 1) lines).length := by
      simpa [markersFrom, lastMarkers] using h
    have hrest : (markersFrom (line + 1) (lastMarkers lines)).length =
        (markersFrom (line + 1) lines).length := by omega
    intro other hother
    rcases List.mem_cons.mp hother with rfl | hmem
    · omega
    · exact ih hrest other hmem

/-! ## The map -/

namespace LineTags

/-- The tags of lines with their numbers, in the order of the lines. -/
def tagsFrom (line : Nat) : List (List Char) → List (String × Nat)
  | [] => []
  | l :: ls => ((tagOfLine l).toList.map fun tag => (tag, line)) ++ tagsFrom (line + 1) ls

theorem place_perm (name : String) (line : Nat) (es : List (String × Nat)) :
    (place name line es).Perm ((name, line) :: es) := by
  induction es with
  | nil => exact List.Perm.refl _
  | cons e es ih =>
    obtain ⟨n, l⟩ := e
    unfold place
    split
    · exact List.Perm.refl _
    · exact (ih.cons (n, l)).trans (List.Perm.swap ..)

theorem find?_eq_none {name : String} {es : List (String × Nat)} :
    find? name es = none ↔ name ∉ es.map Prod.fst := by
  induction es with
  | nil => simp [find?]
  | cons e es ih =>
    obtain ⟨n, l⟩ := e
    by_cases hn : n = name
    · simp [find?, hn]
    · simp [find?, hn, ih, Ne.symm hn]

theorem find?_of_mem {name : String} {line : Nat} {es : List (String × Nat)}
    (hkeys : (es.map Prod.fst).Nodup) (h : (name, line) ∈ es) : find? name es = some line := by
  induction es with
  | nil => cases h
  | cons e es ih =>
    obtain ⟨n, l⟩ := e
    obtain ⟨hn, hes⟩ := List.nodup_cons.mp hkeys
    rcases List.mem_cons.mp h with heq | hmem
    · cases heq
      rw [find?, if_pos rfl]
    · have hne : n ≠ name := by
        rintro rfl
        exact hn (List.mem_map.mpr ⟨_, hmem, rfl⟩)
      rw [find?, if_neg hne]
      exact ih hes hmem

theorem mem_of_find? {name : String} {line : Nat} {es : List (String × Nat)}
    (h : find? name es = some line) : (name, line) ∈ es := by
  induction es with
  | nil => cases h
  | cons e es ih =>
    obtain ⟨n, l⟩ := e
    unfold find? at h
    split at h
    · rename_i hn
      subst hn
      rw [Option.some.inj h]
      exact List.mem_cons_self
    · exact List.mem_cons_of_mem _ (ih h)

theorem tagsFrom_of_none {l : List Char} (htag : tagOfLine l = none) (line : Nat)
    (ls : List (List Char)) : tagsFrom line (l :: ls) = tagsFrom (line + 1) ls := by
  rw [tagsFrom, htag]
  rfl

theorem tagsFrom_of_some {l : List Char} {tag : String} (htag : tagOfLine l = some tag)
    (line : Nat) (ls : List (List Char)) :
    tagsFrom line (l :: ls) = (tag, line) :: tagsFrom (line + 1) ls := by
  rw [tagsFrom, htag]
  rfl

/-- The tag of a line may wait in the list or stand in the map already. -/
theorem insert_perm {l : List Char} {tag : String} (htag : tagOfLine l = some tag) (t : LineTags)
    (line : Nat) (ls : List (List Char)) :
    (tagsFrom (line + 1) ls ++ (t.insert tag line).entries).Perm
      (tagsFrom line (l :: ls) ++ t.entries) := by
  rw [tagsFrom_of_some htag]
  exact ((place_perm tag line t.entries).append_left _).trans List.perm_middle

/-- Lines with tags of their own come into the map, each with its number. -/
theorem addLines_perm {t : LineTags} {line : Nat} {ls : List (List Char)}
    (h : ((tagsFrom line ls ++ t.entries).map Prod.fst).Nodup) :
    ∃ t', addLines t line ls = .ok t' ∧ t'.entries.Perm (tagsFrom line ls ++ t.entries) := by
  induction ls generalizing t line with
  | nil => exact ⟨t, rfl, List.Perm.refl _⟩
  | cons l ls ih =>
    cases htag : tagOfLine l with
    | none =>
      rw [tagsFrom_of_none htag] at h ⊢
      obtain ⟨t', ht', hperm⟩ := ih h
      refine ⟨t', ?_, hperm⟩
      rw [addLines, htag, ht']
    | some tag =>
      have hmoved := insert_perm htag t line ls
      obtain ⟨t', ht', hperm⟩ := ih ((hmoved.map Prod.fst).nodup_iff.mpr h)
      rw [tagsFrom_of_some htag, List.cons_append, List.map_cons] at h
      obtain ⟨hfresh, -⟩ := List.nodup_cons.mp h
      have hget : t.get? tag = none := by
        refine find?_eq_none.mpr fun hmem => hfresh ?_
        rw [List.map_append]
        exact List.mem_append_right _ hmem
      refine ⟨t', ?_, hperm.trans hmoved⟩
      rw [addLines, htag]
      simp only [hget, ht']

/-- The map holds these markers, each with its line, and nothing else. -/
structure Complete (t : LineTags) (markers : List (String × Nat)) : Prop where
  size : t.size = markers.length
  line : ∀ m ∈ markers, t.get? m.1 = some m.2

theorem complete_of_perm {t : LineTags} {markers : List (String × Nat)}
    (h : t.entries.Perm markers) (hkeys : (markers.map Prod.fst).Nodup) : t.Complete markers := by
  refine ⟨h.length_eq, fun m hm => ?_⟩
  exact find?_of_mem ((h.map Prod.fst).nodup_iff.mpr hkeys) (h.mem_iff.mpr hm)

theorem tagsFrom_marked {lines : List (List Char)} {names : List (List (List Char))}
    (h : List.Forall₂ Marked lines names) (line : Nat) :
    tagsFrom line lines = markersFrom line (lastMarkers names) := by
  induction h generalizing line with
  | nil => rfl
  | @cons l names lines others hl _ ih =>
    rw [tagsFrom, hl.tagOfLine, ih]
    unfold lastMarkers
    rw [List.map_cons, markersFrom]
    cases names.getLast? <;> rfl

/-- Markers with different names are collected, of each line the last.  All of them are in the
map exactly if no line has more than one. -/
theorem markers_complete_iff {text : String} {names : List (List (List Char))}
    (hmarked : List.Forall₂ Marked (Text.lineChars text.toList) names)
    (hdistinct : ((markersFrom 1 names).map Prod.fst).Nodup) :
    ∃ t, ofText text = .ok t ∧ t.Complete (markersFrom 1 (lastMarkers names)) ∧
      (t.Complete (markersFrom 1 names) ↔ ∀ line ∈ names, line.length ≤ 1) := by
  have hlast : ((markersFrom 1 (lastMarkers names)).map Prod.fst).Nodup :=
    hdistinct.sublist ((markersFrom_last_sublist 1 names).map Prod.fst)
  have htags := tagsFrom_marked hmarked 1
  have hfresh : ((tagsFrom 1 (Text.lineChars text.toList) ++ empty.entries).map Prod.fst).Nodup := by
    rw [htags]
    simpa [empty] using hlast
  obtain ⟨t, ht, hperm⟩ := addLines_perm hfresh
  have hentries : t.entries.Perm (markersFrom 1 (lastMarkers names)) := by
    rw [htags] at hperm
    simpa [empty] using hperm
  have hcomplete := complete_of_perm hentries hlast
  refine ⟨t, ht, hcomplete, fun hall => ?_, fun hshort => ?_⟩
  · exact short_of_length_eq (hcomplete.size.symm.trans hall.size)
  · rw [lastMarkers_of_short hshort] at hcomplete
    exact hcomplete

/-- Three lines, with two markers, none, and one with blanks in it. -/
def markedText : String := "@A@ x @ B @\n\ny(); // @C@\n"

def markedNames : List (List (List Char)) := [["A".toList, " B ".toList], [], ["C".toList]]

theorem markedText_marked :
    List.Forall₂ Marked (Text.lineChars markedText.toList) markedNames := by
  have hlines : Text.lineChars markedText.toList =
      [[] ++ '@' :: (['A'] ++ '@' :: (" x ".toList ++ '@' :: (" B ".toList ++ '@' :: []))),
        [], "y(); // ".toList ++ '@' :: (['C'] ++ '@' :: [])] := by
    decide +kernel
  have hC : Marked ("y(); // ".toList ++ '@' :: (['C'] ++ '@' :: [])) [['C']] :=
    .marker (by decide) (by decide) (by decide) (.plain (by decide))
  rw [hlines]
  refine .cons ?_ (.cons (.plain (by decide)) (.cons hC .nil))
  exact .marker (by decide) (by decide) (by decide)
    (.marker (by decide) (by decide) (by decide) (.plain (by decide)))

theorem markers_complete_iff_markedText :
    List.Forall₂ Marked (Text.lineChars markedText.toList) markedNames ∧
      ((markersFrom 1 markedNames).map Prod.fst).Nodup ∧
      ∃ t, ofText markedText = .ok t ∧ t.Complete [("B", 1), ("C", 3)] ∧
        (t.Complete [("A", 1), ("B", 1), ("C", 3)] ↔ ∀ line ∈ markedNames, line.length ≤ 1) := by
  have hdistinct : ((markersFrom 1 markedNames).map Prod.fst).Nodup := by decide +kernel
  have hlast : markersFrom 1 (lastMarkers markedNames) = [("B", 1), ("C", 3)] := by
    decide +kernel
  have hall : markersFrom 1 markedNames = [("A", 1), ("B", 1), ("C", 3)] := by decide +kernel
  have hmap := markers_complete_iff markedText_marked hdistinct
  rw [hlast, hall] at hmap
  exact ⟨markedText_marked, hdistinct, hmap⟩

/-- The first of two markers on a line is lost. -/
theorem first_marker_lost :
    Marked "@A@ @B@".toList [['A'], ['B']] ∧ markersFrom 1 [[['A'], ['B']]] = [("A", 1), ("B", 1)] ∧
      ofText "@A@ @B@" = .ok ⟨[("B", 1)]⟩ ∧ ¬Complete ⟨[("B", 1)]⟩ [("A", 1), ("B", 1)] := by
  refine ⟨?_, by decide +kernel, by decide +kernel, fun h => absurd h.size (by decide)⟩
  have hline : "@A@ @B@".toList =
      [] ++ '@' :: (['A'] ++ '@' :: ([' '] ++ '@' :: (['B'] ++ '@' :: []))) := by
    decide
  rw [hline]
  exact .marker (by decide) (by decide) (by decide)
    (.marker (by decide) (by decide) (by decide) (.plain (by decide)))

end LineTags
end CheckScript
