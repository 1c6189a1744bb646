/-
Which test cases are found below a directory, and in which order.

A place in a tree is the list of names that leads there.  The files of a tree, as places, are those
that are seen in it (`mem_files`), each once (`files_nodup`), and so two listings of one tree differ
only in their order.  Sorting takes that difference away: components are in a strict total order
(`Component.key`), so are lists of them, and the paths of different places below a directory have
different components (`components_descend`).
-/
import CheckScript.Proofs.Files.Tree
import CheckScript.Proofs.Path
import CheckScript.TestCase.Basic
import Mathlib.Data.List.Lex
import Mathlib.Data.List.Sort
import Mathlib.Data.Prod.Lex
import Mathlib.Data.String.Basic

namespace CheckScript

/-! ## The order of paths -/

namespace Path

namespace Component

/-- Components are ordered by their rank, and names among each other by their text. -/
def key (a : Component) : ℕ ×ₗ String :=
  toLex (a.rank, match a with | name text => text | _ => "")

theorem before_iff (a b : Component) : a.before b = true ↔ a.key < b.key := by
  cases a <;> cases b <;> simp [before, key, rank, Prod.Lex.toLex_lt_toLex]

theorem key_injective : Function.Injective key := by
  intro a b h
  cases a <;> cases b <;> simp_all [key, rank]

/-- `before` as a relation. -/
def Before (a b : Component) : Prop := a.before b = true

instance : IsStrictTotalOrder Component Before where
  irrefl a h := lt_irrefl a.key ((before_iff a a).mp h)
  trans a b c hab hbc :=
    (before_iff a c).mpr (lt_trans ((before_iff a b).mp hab) ((before_iff b c).mp hbc))
  trichotomous a b hab hba :=
    key_injective (le_antisymm (not_lt.mp fun h => hba ((before_iff b a).mpr h))
      (not_lt.mp fun h => hab ((before_iff a b).mpr h)))

end Component

open Component

/-- Where the components first differ, those of `p` come before those of `q`; a path comes before
those that go on from it. -/
def Precedes (p q : Path) : Prop := List.Lex Before p.components q.components

instance : Std.Irrefl Precedes := ⟨fun p h => irrefl_of (List.Lex Before) p.components h⟩

instance : Std.Antisymm Precedes := ⟨fun _ _ h h' => absurd h' (asymm_of (List.Lex Before) h)⟩

theorem noLater_iff (as bs : List Component) :
    noLater as bs = true ↔ ¬List.Lex Before bs as := by
  induction as generalizing bs with
  | nil =>
    cases bs <;>
    · rw [noLater]
      exact iff_of_true rfl nofun
  | cons a as ih =>
    cases bs with
    | nil =>
      rw [noLater]
      exact iff_of_false Bool.false_ne_true (not_not_intro .nil)
    | cons b bs =>
      rw [noLater, Bool.or_eq_true, Bool.and_eq_true, beq_iff_eq, ih, List.cons_lex_cons_iff]
      rcases trichotomous_of Before a b with h | rfl | h
      · refine iff_of_true (.inl h) ?_
        rintro (hback | ⟨rfl, -⟩)
        · exact asymm_of Before h hback
        · exact irrefl_of Before b h
      · have hself : ¬a.before a = true := irrefl_of Before a
        have hself' : ¬Before a a := hself
        rw [or_iff_right hself, or_iff_right hself', and_iff_right rfl, and_iff_right rfl]
      · refine iff_of_false ?_ (not_not_intro (.inl h))
        rintro (hforth | ⟨rfl, -⟩)
        · exact asymm_of Before h hforth
        · exact irrefl_of Before a h

theorem le_iff (p q : Path) : p.le q = true ↔ ¬q.Precedes p := noLater_iff _ _

/-- A slash ends a component, so the order is not that of the texts. -/
example : (Path.mk "b/a.cpp").le ⟨"b-more.c"⟩ = true ∧ "b-more.c" < "b/a.cpp" := by decide

theorem le_trans (p q r : Path) (h : p.le q = true) (h' : q.le r = true) : p.le r = true := by
  rw [le_iff] at h h' ⊢
  exact IsOrderConnected.neg_trans (r := List.Lex Before) h' h

theorem le_total (p q : Path) : (p.le q || q.le p) = true := by
  rw [Bool.or_eq_true, le_iff, le_iff]
  by_cases h : q.Precedes p
  · exact .inr (asymm_of (List.Lex Before) h)
  · exact .inl h

theorem precedes_of_le {p q : Path} (h : p.le q = true) (hne : p.components ≠ q.components) :
    p.Precedes q := by
  rcases trichotomous_of (List.Lex Before) p.components q.components with hlex | heq | hlex
  · exact hlex
  · exact absurd heq hne
  · exact absurd hlex ((le_iff p q).mp h)

/-! ## Paths of places -/

/-- The path of a place below a directory. -/
def descend (p : Path) (place : List String) : Path := place.foldl (fun p n => p.join ⟨n⟩) p

/-- What lies in the directory `p`, with one component for each name. -/
theorem components_descend {place : List String} (p : Path)
    (hplain : ∀ n ∈ place, Plain n.toList) :
    (p.descend place).components = p.components ++ place.map Component.name := by
  induction place generalizing p with
  | nil => exact (List.append_nil _).symm
  | cons n place ih =>
    obtain ⟨hn, hrest⟩ := List.forall_mem_cons.mp hplain
    have hjoin : (p.join ⟨n⟩).components = p.components ++ [.name n] := by
      rw [join_eq_below p hn.slash, components_below p hn.slash hn.dot, hn.ofPiece,
        String.ofList_toList]
      rfl
    rw [descend, List.foldl_cons, ← descend, ih _ hrest, hjoin, List.append_assoc]
    rfl

/-- The extension of a path is behind the last dot of its last name, but not at its beginning. -/
theorem extension_descend {n : String} (p : Path) (above : List String) (hn : Plain n.toList)
    {ending : String} (hending : '.' ∉ ending.toList) :
    (p.descend (above ++ [n])).extension = some ending ↔
      ∃ stem, stem ≠ "" ∧ n = stem ++ "." ++ ending := by
  have hsplit : (p.descend (above ++ [n])).splitLast =
      some ((p.descend above).front, n.toList) := by
    rw [descend, List.foldl_concat, join_eq_below _ hn.slash, splitLast_below _ hn]
    rfl
  rw [extension, hsplit, Option.bind_some]
  dsimp only
  constructor
  · intro h
    rcases splitName_cases n.toList with ⟨hnone, -⟩ | ⟨stem, last, hsome, hname, hstem, -⟩
    · rw [hnone] at h
      cases h
    · rw [hsome] at h
      obtain rfl := Option.some.inj h
      refine ⟨String.ofList stem, fun hempty => hstem ?_, String.toList_inj.mp ?_⟩
      · rw [← String.toList_ofList (l := stem), hempty]
        rfl
      · simp [hname]
  · rintro ⟨stem, hstem, rfl⟩
    have hchars : (stem ++ "." ++ ending).toList = stem.toList ++ '.' :: ending.toList := by
      simp
    have hne : stem.toList ≠ [] := fun h => hstem (String.toList_inj.mp h)
    rw [hchars, splitName_append hne hending]
    exact congrArg some String.ofList_toList

end Path

/-! ## The files of a tree -/

namespace FileNode

/- The places of all files. -/
mutual

def files : FileNode → List (List String)
  | .file _ => [[]]
  | .directory entries => filesIn entries

def filesIn : List (String × FileNode) → List (List String)
  | [] => []
  | (name, node) :: entries => (files node).map (name :: ·) ++ filesIn entries

end

variable {entries : List (String × FileNode)} {place : List String}

theorem mem_filesIn :
    place ∈ filesIn entries ↔ ∃ e ∈ entries, ∃ rest ∈ e.2.files, place = e.1 :: rest := by
  induction entries with
  | nil => simp [filesIn]
  | cons e entries ih =>
    rw [filesIn, List.mem_append, ih, List.mem_map, List.exists_mem_cons_iff]
    simp only [eq_comm]

theorem lookup_of_mem {e : String × FileNode} (hnames : (entries.map Prod.fst).Nodup)
    (h : e ∈ entries) : lookup e.1 entries = some e.2 := by
  induction entries with
  | nil => cases h
  | cons first entries ih =>
    obtain ⟨hfirst, hrest⟩ := List.nodup_cons.mp hnames
    rcases List.mem_cons.mp h with rfl | hmem
    · exact if_pos rfl
    · have hne : first.1 ≠ e.1 := fun heq => hfirst (heq ▸ List.mem_map_of_mem hmem)
      exact (if_neg hne).trans (ih hrest hmem)

theorem view_cons (n : String) (place : List String) :
    (directory entries).view (n :: place) =
      (lookup n entries).bind fun node => node.view place := by
  show ((lookup n entries).bind fun node => node.get? place).map content? = _
  exact Option.map_bind

theorem lookup_perm {listed : List (String × FileNode)} (h : entries.Perm listed)
    (hnames : (entries.map Prod.fst).Nodup) (n : String) : lookup n listed = lookup n entries := by
  have hnames' : (listed.map Prod.fst).Nodup := (h.map Prod.fst).nodup_iff.mp hnames
  refine Option.ext fun node => ⟨fun hnode => ?_, fun hnode => ?_⟩
  · exact lookup_of_mem hnames (h.mem_iff.mpr (mem_of_lookup hnode))
  · exact lookup_of_mem hnames' (h.mem_iff.mp (mem_of_lookup hnode))

/-- What is seen in a directory does not depend on the order in which it is listed. -/
theorem view_perm {listed : List (String × FileNode)} (h : entries.Perm listed)
    (hnames : (entries.map Prod.fst).Nodup) (place : List String) :
    (directory listed).view place = (directory entries).view place := by
  cases place with
  | nil => rfl
  | cons n place => rw [view_cons, view_cons, lookup_perm h hnames]

/-- The files of a tree are those that are seen at their places. -/
theorem mem_files {node : FileNode} (h : node.Tidy) :
    place ∈ node.files ↔ ∃ bytes, node.view place = some (some bytes) := by
  induction h generalizing place with
  | file bytes =>
    cases place with
    | nil => exact iff_of_true List.mem_cons_self ⟨bytes, rfl⟩
    | cons n place => exact iff_of_false (by simp [files]) nofun
  | @directory entries hnames hentries ih =>
    rw [files, mem_filesIn]
    cases place with
    | nil => exact iff_of_false nofun nofun
    | cons n place =>
      rw [view_cons]
      constructor
      · rintro ⟨e, he, rest, hrest, hplace⟩
        obtain ⟨rfl, rfl⟩ := List.cons.inj hplace
        rw [lookup_of_mem hnames he]
        exact (ih e he).mp hrest
      · rintro ⟨bytes, hbytes⟩
        obtain ⟨node, hnode, hfile⟩ := Option.bind_eq_some_iff.mp hbytes
        have hmem := mem_of_lookup hnode
        exact ⟨(n, node), hmem, place, (ih _ hmem).mpr ⟨bytes, hfile⟩, rfl⟩

theorem files_nodup {node : FileNode} (h : node.Tidy) : node.files.Nodup := by
  induction h with
  | file bytes => exact List.nodup_singleton _
  | @directory entries hnames hentries ih =>
    rw [files]
    clear hentries
    induction entries with
    | nil => exact List.nodup_nil
    | cons e entries ihentries =>
      obtain ⟨hfirst, hrest⟩ := List.nodup_cons.mp hnames
      obtain ⟨hnode, hmore⟩ := List.forall_mem_cons.mp ih
      rw [filesIn]
      refine List.Nodup.append (hnode.map fun _ _ heq => (List.cons.inj heq).2)
        (ihentries hrest hmore) fun place hleft hright => ?_
      obtain ⟨rest, -, rfl⟩ := List.mem_map.mp hleft
      obtain ⟨other, hother, _, -, heq⟩ := mem_filesIn.mp hright
      exact hfirst ((List.cons.inj heq).1 ▸ List.mem_map_of_mem hother)

/-- All names in the tree are ones that files can have. -/
def Named (node : FileNode) : Prop :=
  ∀ place, node.view place ≠ none → ∀ n ∈ place, Path.Plain n.toList

theorem Named.file (bytes : ByteArray) : (file bytes).Named := by
  rintro (_ | ⟨n, place⟩) hview
  · exact List.forall_mem_nil _
  · exact absurd rfl hview

theorem Named.directory (h : ∀ e ∈ entries, Path.Plain e.1.toList ∧ e.2.Named) :
    (directory entries).Named := by
  rintro (_ | ⟨n, place⟩) hview
  · exact List.forall_mem_nil _
  · rw [view_cons] at hview
    cases hnode : lookup n entries with
    | none =>
      rw [hnode] at hview
      exact absurd rfl hview
    | some node =>
      rw [hnode] at hview
      obtain ⟨hn, hnamed⟩ := h _ (mem_of_lookup hnode)
      exact List.forall_mem_cons.mpr ⟨hn, hnamed place hview⟩

end FileNode

/-! ## Test cases -/

namespace TestCase

/-- At the place below a directory there is a file, and its name, which may have further dots in it,
ends with the extension of a test source. -/
structure SourceAt (tree : FileNode) (place : List String) : Prop where
  file : ∃ bytes, tree.view place = some (some bytes)
  name : ∃ stem, ∃ ending ∈ extensions, stem ≠ "" ∧ place.getLast? = some (stem ++ "." ++ ending)

theorem isSource_iff (p : Path) : isSource p = true ↔ ∃ e ∈ extensions, p.extension = some e := by
  unfold isSource
  cases p.extension with
  | none => simp
  | some e => simp

theorem sourceAt_iff {entries : List (String × FileNode)} {place : List String}
    (htidy : (FileNode.directory entries).Tidy) (hnamed : (FileNode.directory entries).Named)
    (p : Path) :
    SourceAt (.directory entries) place ↔
      place ∈ (FileNode.directory entries).files ∧ isSource (p.descend place) = true := by
  have hdots : ∀ e ∈ extensions, '.' ∉ e.toList := by decide
  rw [FileNode.mem_files htidy, isSource_iff]
  constructor
  · rintro ⟨⟨bytes, hfile⟩, stem, e, he, hstem, hlast⟩
    obtain ⟨above, rfl⟩ := List.getLast?_eq_some_iff.mp hlast
    have hplain := hnamed _ (by rw [hfile]; nofun) _ List.mem_concat_self
    exact ⟨⟨bytes, hfile⟩, e, he,
      (Path.extension_descend p above hplain (hdots e he)).mpr ⟨stem, hstem, rfl⟩⟩
  · rintro ⟨⟨bytes, hfile⟩, e, he, hextension⟩
    rcases List.eq_nil_or_concat place with rfl | ⟨above, n, rfl⟩
    · cases hfile
    · rw [List.concat_eq_append] at hfile hextension ⊢
      have hplain := hnamed _ (by rw [hfile]; nofun) _ List.mem_concat_self
      obtain ⟨stem, hstem, rfl⟩ :=
        (Path.extension_descend p above hplain (hdots e he)).mp hextension
      exact ⟨⟨bytes, hfile⟩, stem, e, he, hstem, List.getLast?_concat⟩

/- The sources are the files with such an extension, in the order of the listing. -/
mutual

theorem sourcesAt_eq (p : Path) (node : FileNode) :
    sourcesAt p node = (node.files.map p.descend).filter isSource := by
  match node with
  | .file _ =>
    rw [sourcesAt, FileNode.files, List.map_singleton, List.filter_singleton, Bool.cond_eq_ite]
    rfl
  | .directory entries => exact sourcesIn_eq p entries

theorem sourcesIn_eq (p : Path) (entries : List (String × FileNode)) :
    sourcesIn p entries = ((FileNode.filesIn entries).map p.descend).filter isSource := by
  match entries with
  | [] => rfl
  | (name, node) :: entries =>
    rw [sourcesIn, FileNode.filesIn, sourcesAt_eq, sourcesIn_eq, List.map_append,
      List.filter_append, List.map_map]
    rfl

end

variable {f g : Files} {directory : Path} {entries listed : List (String × FileNode)}

/-- Different places of a tree have paths with different components. -/
theorem components_ne (hnamed : (FileNode.directory entries).Named) (p : Path)
    {a b : List String} (ha : SourceAt (.directory entries) a)
    (hb : SourceAt (.directory entries) b) (hne : a ≠ b) :
    (p.descend a).components ≠ (p.descend b).components := by
  have hplain {place : List String} (h : SourceAt (.directory entries) place) :
      ∀ n ∈ place, Path.Plain n.toList := by
    obtain ⟨bytes, hfile⟩ := h.file
    exact hnamed place (by rw [hfile]; nofun)
  rw [Path.components_descend p (hplain ha), Path.components_descend p (hplain hb)]
  intro heq
  exact hne (List.map_injective_iff.mpr (fun _ _ h => Path.Component.name.inj h)
    (List.append_cancel_left heq))

/-- What a search finds, as places below the directory. -/
theorem allBelow_places (hfind : f.find directory = .ok (.directory entries))
    (htidy : (FileNode.directory entries).Tidy) (hnamed : (FileNode.directory entries).Named) :
    ∃ places : List (List String),
      allBelow f directory = .ok ((places.map directory.descend).map ofSource) ∧
      (∀ place, place ∈ places ↔ SourceAt (.directory entries) place) ∧
      (places.map directory.descend).Pairwise Path.Precedes := by
  let found := (FileNode.directory entries).files.filter (isSource ∘ directory.descend)
  let places := found.mergeSort fun a b => (directory.descend a).le (directory.descend b)
  have hmem (place : List String) : place ∈ places ↔ SourceAt (.directory entries) place := by
    rw [List.mem_mergeSort, sourceAt_iff htidy hnamed directory]
    exact List.mem_filter
  have hsources : sourcesIn directory entries = found.map directory.descend := by
    rw [sourcesIn_eq, List.filter_map]
    rfl
  have hsort : places.map directory.descend = (sourcesIn directory entries).mergeSort Path.le := by
    rw [hsources]
    exact List.map_mergeSort fun _ _ _ _ => rfl
  refine ⟨places, ?_, hmem, ?_⟩
  · rw [allBelow, hfind, hsort]
  · have hsorted : (places.map directory.descend).Pairwise fun p q => p.le q = true := by
      rw [hsort]
      exact List.pairwise_mergeSort Path.le_trans Path.le_total _
    have hnodup : places.Nodup :=
      (List.mergeSort_perm found _).nodup_iff.mpr ((FileNode.files_nodup htidy).filter _)
    have hprecedes {a b : List String} (ha : a ∈ places) (hb : b ∈ places)
        (h : (directory.descend a).le (directory.descend b) = true ∧ a ≠ b) :
        (directory.descend a).Precedes (directory.descend b) :=
      Path.precedes_of_le h.1
        (components_ne hnamed directory ((hmem a).mp ha) ((hmem b).mp hb) h.2)
    exact List.pairwise_map.mpr
      (((List.pairwise_map.mp hsorted).and hnodup).imp_of_mem hprecedes)

/-- A search finds one case for each file below the directory that has the extension of a test
source, at any depth, in ascending order of the components of their paths.  Another listing of the
same tree gives the same cases. -/
theorem allBelow_exact (hfind : f.find directory = .ok (.directory entries))
    (htidy : (FileNode.directory entries).Tidy) (hnamed : (FileNode.directory entries).Named) :
    (∃ places : List (List String),
      allBelow f directory = .ok ((places.map directory.descend).map ofSource) ∧
      (∀ place, place ∈ places ↔ SourceAt (.directory entries) place) ∧
      (places.map directory.descend).Pairwise Path.Precedes) ∧
    ∀ (g : Files) (listed : List (String × FileNode)),
      g.find directory = .ok (.directory listed) → (FileNode.directory listed).Tidy →
      (∀ place, (FileNode.directory listed).view place =
        (FileNode.directory entries).view place) →
      allBelow g directory = allBelow f directory := by
  refine ⟨allBelow_places hfind htidy hnamed, fun g listed hfind' htidy' hview => ?_⟩
  have hnamed' : (FileNode.directory listed).Named := fun place hplace =>
    hnamed place (hview place ▸ hplace)
  have hsame (place : List String) :
      SourceAt (.directory listed) place ↔ SourceAt (.directory entries) place :=
    ⟨fun h => ⟨hview place ▸ h.file, h.name⟩, fun h => ⟨(hview place).symm ▸ h.file, h.name⟩⟩
  obtain ⟨places, hcases, hmem, hsorted⟩ := allBelow_places hfind htidy hnamed
  obtain ⟨others, hcases', hmem', hsorted'⟩ := allBelow_places hfind' htidy' hnamed'
  have hpaths : others.map directory.descend = places.map directory.descend := by
    refine hsorted'.eq_of_mem_iff hsorted fun p => ?_
    simp only [List.mem_map, hmem, hmem', hsame]
  rw [hcases, hcases', hpaths]

/-- What lies in the directory "b". -/
def nested : List (String × FileNode) := [(".rs", .file .empty), ("a.cpp", .file .empty)]

/-- A source, a directory that has such a name, and a directory with a hidden file. -/
def listing : List (String × FileNode) :=
  [("b-more.c", .file .empty), ("b", .directory nested), ("b.rs", .directory [])]

/-- The entries in the directory "tests". -/
def tests (entries : List (String × FileNode)) : Files where
  root := .directory [("tests", .directory entries)]
  here := []

theorem listing_tidy : (FileNode.directory listing).Tidy := by
  have hempty : (FileNode.directory []).Tidy := .empty
  have hnested : (FileNode.directory nested).Tidy :=
    .directory (by decide) (by simp [nested, FileNode.Tidy.file])
  exact .directory (by decide) (by simp [listing, FileNode.Tidy.file, hempty, hnested])

theorem listing_named : (FileNode.directory listing).Named := by
  have hempty : (FileNode.directory []).Named := .directory (List.forall_mem_nil _)
  have hnested : (FileNode.directory nested).Named :=
    .directory fun e he => ⟨(by decide : ∀ e ∈ nested, Path.Plain e.1.toList) e he, by
      revert e
      simp [nested, FileNode.Named.file]⟩
  exact .directory fun e he => ⟨(by decide : ∀ e ∈ listing, Path.Plain e.1.toList) e he, by
    revert e
    simp [listing, FileNode.Named.file, hempty, hnested]⟩

theorem allBelow_exact_listing :
    (∃ places : List (List String),
      allBelow (tests listing) ⟨"tests"⟩ =
        .ok ((places.map (Path.descend ⟨"tests"⟩)).map ofSource) ∧
      (∀ place, place ∈ places ↔ SourceAt (.directory listing) place) ∧
      (places.map (Path.descend ⟨"tests"⟩)).Pairwise Path.Precedes) ∧
    allBelow (tests listing.reverse) ⟨"tests"⟩ = allBelow (tests listing) ⟨"tests"⟩ := by
  have hfind : (tests listing).find ⟨"tests"⟩ = .ok (.directory listing) := rfl
  obtain ⟨hplaces, hsame⟩ := allBelow_exact hfind listing_tidy listing_named
  refine ⟨hplaces, hsame (tests listing.reverse) listing.reverse rfl ?_ ?_⟩
  · cases listing_tidy with
    | directory hnames hentries =>
      refine .directory (by decide) fun e he => hentries e (List.mem_reverse.mp he)
  · exact FileNode.view_perm listing.reverse_perm.symm (by decide)

end TestCase
end CheckScript
