/-
What changes of a tree of files leave as it was.

A change at one place is not seen from any other place: directories that lead there stay
directories, and whatever stands off the way stays as it is (`view_set`).  Removing is complete
only in a tree where no directory lists a name twice; such trees are `Tidy`, and changes keep them
so.  Making directories adds to a tree and takes nothing away (`Grows`).
-/
import CheckScript.Files.Tree

namespace CheckScript

/-! ## Entries -/

namespace FileNode

variable {name other : String} {entries : List (String × FileNode)} {value : Option FileNode}

theorem lookup_update_ne (h : other ≠ name) :
    lookup other (update name value entries) = lookup other entries := by
  induction entries with
  | nil =>
    cases value with
    | none => rfl
    | some v => exact if_neg h.symm
  | cons entry entries ih =>
    obtain ⟨n, node⟩ := entry
    rw [update]
    split
    · rename_i hn
      subst hn
      cases value with
      | none => exact (if_neg h.symm).symm
      | some v => exact (if_neg h.symm).trans (if_neg h.symm).symm
    · by_cases hother : n = other
      · exact (if_pos hother).trans (if_pos hother).symm
      · exact (if_neg hother).trans (ih.trans (if_neg hother).symm)

theorem lookup_update_some (v : FileNode) :
    lookup name (update name (some v) entries) = some v := by
  induction entries with
  | nil => exact if_pos rfl
  | cons entry entries ih =>
    obtain ⟨n, node⟩ := entry
    rw [update]
    split
    · exact if_pos rfl
    · rename_i hn
      exact (if_neg hn).trans ih

theorem lookup_eq_none (h : name ∉ entries.map Prod.fst) : lookup name entries = none := by
  induction entries with
  | nil => rfl
  | cons entry entries ih =>
    rw [List.map_cons, List.mem_cons, not_or] at h
    exact (if_neg fun hname => h.1 hname.symm).trans (ih h.2)

theorem lookup_update_none (h : (entries.map Prod.fst).Nodup) :
    lookup name (update name none entries) = none := by
  induction entries with
  | nil => rfl
  | cons entry entries ih =>
    obtain ⟨n, node⟩ := entry
    obtain ⟨hn, hrest⟩ := List.nodup_cons.mp h
    rw [update]
    split
    · rename_i hname
      exact lookup_eq_none (hname ▸ hn)
    · rename_i hname
      exact (if_neg hname).trans (ih hrest)

theorem mem_of_lookup {node : FileNode} (h : lookup name entries = some node) :
    (name, node) ∈ entries := by
  induction entries with
  | nil => cases h
  | cons entry entries ih =>
    obtain ⟨n, old⟩ := entry
    rw [lookup] at h
    split at h
    · rename_i hn
      obtain rfl := Option.some.inj h
      exact hn ▸ List.mem_cons_self
    · exact List.mem_cons_of_mem _ (ih h)

theorem mem_update {e : String × FileNode} (h : e ∈ update name value entries) :
    (e.1 = name ∧ value = some e.2) ∨ e ∈ entries := by
  induction entries with
  | nil =>
    obtain ⟨v, hv, rfl⟩ := List.mem_map.mp h
    exact .inl ⟨rfl, Option.mem_toList.mp hv⟩
  | cons entry entries ih =>
    obtain ⟨n, old⟩ := entry
    rw [update] at h
    split at h
    · rcases List.mem_append.mp h with hnew | hold
      · obtain ⟨v, hv, rfl⟩ := List.mem_map.mp hnew
        exact .inl ⟨rfl, Option.mem_toList.mp hv⟩
      · exact .inr (List.mem_cons_of_mem _ hold)
    · rcases List.mem_cons.mp h with rfl | hrest
      · exact .inr List.mem_cons_self
      · exact (ih hrest).imp id (List.mem_cons_of_mem _)

theorem nodup_update (h : (entries.map Prod.fst).Nodup) :
    ((update name value entries).map Prod.fst).Nodup := by
  induction entries with
  | nil => cases value <;> simp [update]
  | cons entry entries ih =>
    obtain ⟨n, old⟩ := entry
    obtain ⟨hn, hrest⟩ := List.nodup_cons.mp h
    rw [update]
    split
    · rename_i hname
      subst hname
      cases value with
      | none => exact hrest
      | some v => exact List.nodup_cons.mpr ⟨hn, hrest⟩
    · rename_i hname
      refine List.nodup_cons.mpr ⟨fun hmem => ?_, ih hrest⟩
      obtain ⟨e, he, hen⟩ := List.mem_map.mp hmem
      rcases mem_update he with ⟨heq, -⟩ | hold
      · exact hname (hen.symm.trans heq)
      · exact hn (List.mem_map.mpr ⟨e, hold, hen⟩)

/-! ## Trees that list each name once -/

/-- No directory in the tree lists a name twice. -/
inductive Tidy : FileNode → Prop where
  | file (bytes : ByteArray) : Tidy (.file bytes)
  | directory {entries : List (String × FileNode)} (hnames : (entries.map Prod.fst).Nodup)
      (hentries : ∀ e ∈ entries, Tidy e.2) : Tidy (.directory entries)

theorem Tidy.empty : Tidy .empty := .directory List.nodup_nil (List.forall_mem_nil _)

theorem Tidy.update {entries : List (String × FileNode)} (h : Tidy (.directory entries))
    (hvalue : ∀ v, value = some v → v.Tidy) : Tidy (.directory (update name value entries)) := by
  cases h with
  | directory hnames hentries =>
    refine .directory (nodup_update hnames) fun e he => ?_
    rcases mem_update he with ⟨-, hnew⟩ | hold
    · exact hvalue _ hnew
    · exact hentries e hold

theorem Tidy.lookup {entries : List (String × FileNode)} (h : Tidy (.directory entries))
    {node : FileNode} (hnode : lookup name entries = some node) : node.Tidy := by
  cases h with
  | directory _ hentries => exact hentries _ (mem_of_lookup hnode)

/-! ## Nodes at the end of names -/

theorem get?_append (node : FileNode) (place more : List String) :
    node.get? (place ++ more) = (node.get? place).bind fun n => n.get? more := by
  induction place generalizing node with
  | nil => rfl
  | cons name place ih =>
    rw [List.cons_append, get?, get?]
    cases node.child? name with
    | none => rfl
    | some n => exact ih n

/-- Where the way leads through a directory, a change is made in the node below it. -/
theorem set_directory {entries : List (String × FileNode)} {place : List String}
    (hne : place ≠ []) :
    (directory entries).set value (name :: place) =
      match lookup name entries with
      | none => .directory entries
      | some n => .directory (update name (some (n.set value place)) entries) := by
  cases place with
  | nil => exact absurd rfl hne
  | cons => rfl

theorem Tidy.set {node : FileNode} (h : node.Tidy) (hvalue : ∀ v, value = some v → v.Tidy)
    (place : List String) : (node.set value place).Tidy := by
  induction place generalizing node with
  | nil =>
    cases value with
    | none => exact h
    | some v => exact hvalue v rfl
  | cons name place ih =>
    cases node with
    | file => exact h
    | directory entries =>
      by_cases hplace : place = []
      · subst hplace
        exact h.update hvalue
      · rw [set_directory hplace]
        split
        · exact h
        · rename_i n hn
          refine h.update fun v hv => ?_
          obtain rfl := Option.some.inj hv
          exact ih (h.lookup hn)

/-- The content of a file; a directory has none. -/
def content? : FileNode → Option ByteArray
  | .file bytes => some bytes
  | .directory _ => none

/-- What stands at a place: nothing, a directory, or a file with its content. -/
def view (node : FileNode) (place : List String) : Option (Option ByteArray) :=
  (node.get? place).map content?

theorem child?_set_ne (node : FileNode) (place : List String) (h : other ≠ name) :
    (node.set value (name :: place)).child? other = node.child? other := by
  cases node with
  | file => rfl
  | directory entries =>
    by_cases hplace : place = []
    · subst hplace
      exact lookup_update_ne h
    · rw [set_directory hplace]
      split
      · rfl
      · exact lookup_update_ne h

/-- Off the place that is changed everything looks as before. -/
theorem view_set {node : FileNode} {place other : List String} (h : ¬place <+: other) :
    (node.set value place).view other = node.view other := by
  induction place generalizing node other with
  | nil => exact absurd List.nil_prefix h
  | cons name place ih =>
    cases other with
    | nil =>
      cases node with
      | file => rfl
      | directory entries =>
        by_cases hplace : place = []
        · subst hplace
          rfl
        · rw [set_directory hplace]
          split <;> rfl
    | cons first other =>
      unfold view
      rw [get?, get?]
      by_cases hfirst : first = name
      · subst hfirst
        have hdeeper : ¬place <+: other := fun hprefix =>
          h (List.cons_prefix_cons.mpr ⟨rfl, hprefix⟩)
        have hplace : place ≠ [] := by
          rintro rfl
          exact hdeeper List.nil_prefix
        cases node with
        | file => rfl
        | directory entries =>
          rw [set_directory hplace]
          split
          · rfl
          · rename_i n hn
            rw [child?, child?, lookup_update_some, hn]
            exact ih hdeeper
      · rw [child?_set_ne node place hfirst]

/-- At the place of a change stands what was put there, unless the way there is missing, and then
there is nothing below it. -/
theorem get?_set_some (node v : FileNode) (place more : List String) :
    (node.set (some v) place).get? (place ++ more) = v.get? more ∨
      node.get? place = none ∧ (node.set (some v) place).get? place = none := by
  induction place generalizing node with
  | nil => exact .inl rfl
  | cons name place ih =>
    cases node with
    | file => exact .inr ⟨rfl, rfl⟩
    | directory entries =>
      by_cases hplace : place = []
      · subst hplace
        left
        show ((lookup name (update name (some v) entries)).bind fun n => n.get? more) = _
        rw [lookup_update_some]
        rfl
      · rw [set_directory hplace]
        cases hn : lookup name entries with
        | none =>
          right
          constructor <;>
          · show (lookup name entries).bind _ = none
            rw [hn]
            rfl
        | some n =>
          show ((lookup name (update name (some (n.set (some v) place)) entries)).bind
            fun n => n.get? (place ++ more)) = _ ∨ (lookup name entries).bind _ = none ∧
            (lookup name (update name (some (n.set (some v) place)) entries)).bind _ = none
          rw [lookup_update_some, hn]
          exact ih n

/-- Where the way leads to a directory, a new node stands at its place. -/
theorem get?_set_child {node : FileNode} {directory : List String}
    {entries : List (String × FileNode)} (h : node.get? directory = some (.directory entries))
    (name : String) (v : FileNode) :
    (node.set (some v) (directory ++ [name])).get? (directory ++ [name]) = some v := by
  induction directory generalizing node with
  | nil =>
    obtain rfl := Option.some.inj h
    show (lookup name (update name (some v) entries)).bind _ = _
    rw [lookup_update_some]
    rfl
  | cons first directory ih =>
    obtain ⟨n, hn, hrest⟩ := Option.bind_eq_some_iff.mp h
    cases node with
    | file => cases hn
    | directory entries =>
      have hmore : directory ++ [name] ≠ [] := List.concat_ne_nil _ _
      rw [List.cons_append, set_directory hmore,
        show lookup first entries = some n from hn]
      show (lookup first (update first (some _) entries)).bind _ = _
      rw [lookup_update_some]
      exact ih hrest

/-- Nothing is left at or below a place that was removed. -/
theorem get?_set_none {node : FileNode} (h : node.Tidy) {place : List String} (hne : place ≠ [])
    (more : List String) : (node.set none place).get? (place ++ more) = none := by
  induction place generalizing node with
  | nil => exact absurd rfl hne
  | cons name place ih =>
    cases node with
    | file => rfl
    | directory entries =>
      by_cases hplace : place = []
      · subst hplace
        cases h with
        | directory hnames _ =>
          show (lookup name (update name none entries)).bind _ = none
          rw [lookup_update_none hnames]
          rfl
      · rw [set_directory hplace]
        cases hn : lookup name entries with
        | none =>
          show (lookup name entries).bind _ = none
          rw [hn]
          rfl
        | some n =>
          show (lookup name (update name (some _) entries)).bind _ = none
          rw [lookup_update_some]
          exact ih (h.lookup hn) hplace

end FileNode

/-! ## Files as seen from their places -/

namespace Files

/-- No directory lists a name twice. -/
def Tidy (f : Files) : Prop := f.root.Tidy

/-- What stands at a place: nothing, a directory, or a file with its content. -/
def view (f : Files) (place : List String) : Option (Option ByteArray) := f.root.view place

variable {f f' : Files} {place q : List String} {bytes : ByteArray}

theorem view_eq_none : f.view place = none ↔ f.get? place = none := Option.map_eq_none_iff

theorem view_eq_directory :
    f.view place = some none ↔ ∃ entries, f.get? place = some (.directory entries) := by
  refine Option.map_eq_some_iff.trans ⟨?_, fun ⟨entries, h⟩ => ⟨_, h, rfl⟩⟩
  rintro ⟨node, hnode, hcontent⟩
  cases node with
  | file => cases hcontent
  | directory entries => exact ⟨entries, hnode⟩

theorem view_eq_file : f.view place = some (some bytes) ↔ f.get? place = some (.file bytes) := by
  refine Option.map_eq_some_iff.trans ⟨?_, fun h => ⟨_, h, rfl⟩⟩
  rintro ⟨node, hnode, hcontent⟩
  cases node with
  | file => exact Option.some.inj hcontent ▸ hnode
  | directory => cases hcontent

/-- Below what is no directory there is nothing. -/
theorem view_below (h : f.view place ≠ some none) {more : List String} (hmore : more ≠ []) :
    f.view (place ++ more) = none := by
  obtain ⟨name, rest, rfl⟩ := List.exists_cons_of_ne_nil hmore
  rw [view_eq_none]
  show f.root.get? (place ++ name :: rest) = none
  rw [FileNode.get?_append]
  cases hnode : f.root.get? place with
  | none => rfl
  | some node =>
    cases node with
    | file => rfl
    | directory entries => exact absurd (view_eq_directory.mpr ⟨entries, hnode⟩) h

/-- The directory that a place lies in is there if the place is. -/
theorem view_above {name : String} (h : f.view (place ++ [name]) ≠ none) :
    f.view place = some none := by
  by_cases hplace : f.view place = some none
  · exact hplace
  · exact absurd (view_below hplace (List.cons_ne_nil _ _)) h

/-- A file is written where no directory stands, and nothing else changes. -/
theorem view_set_file {name : String} (hdirectory : f.view place = some none)
    (hold : f.view (place ++ [name]) ≠ some none) (bytes : ByteArray) (q : List String) :
    (f.set (place ++ [name]) (some (.file bytes))).view q =
      if q = place ++ [name] then some (some bytes) else f.view q := by
  obtain ⟨entries, hentries⟩ := view_eq_directory.mp hdirectory
  have hnew := FileNode.get?_set_child hentries name (.file bytes)
  split
  · rename_i hq
    subst hq
    exact congrArg (Option.map FileNode.content?) hnew
  · rename_i hq
    by_cases hprefix : place ++ [name] <+: q
    · obtain ⟨more, rfl⟩ := hprefix
      have hmore : more ≠ [] := by
        rintro rfl
        exact hq (List.append_nil _)
      rw [view_below hold hmore]
      refine view_below (fun hdir => ?_) hmore
      obtain ⟨_, hdir⟩ := view_eq_directory.mp hdir
      exact nomatch (Option.some.inj (hnew.symm.trans hdir))
    · exact FileNode.view_set hprefix

/-- A file is removed, and nothing else changes. -/
theorem view_set_none (htidy : f.Tidy) (hne : place ≠ []) (hold : f.view place ≠ some none)
    (q : List String) :
    (f.set place none).view q = if q = place then none else f.view q := by
  have hnone := FileNode.get?_set_none htidy hne
  split
  · rename_i hq
    subst hq
    have hnothing := hnone []
    rw [List.append_nil] at hnothing
    exact view_eq_none.mpr hnothing
  · rename_i hq
    by_cases hprefix : place <+: q
    · obtain ⟨more, rfl⟩ := hprefix
      have hmore : more ≠ [] := by
        rintro rfl
        exact hq (List.append_nil _)
      rw [view_below hold hmore]
      exact view_eq_none.mpr (hnone more)
    · exact FileNode.view_set hprefix

/-! ## Making directories -/

/-- Nothing is new but directories where nothing was. -/
def Grows (f f' : Files) : Prop :=
  ∀ q, f'.view q = f.view q ∨ f.view q = none ∧ f'.view q = some none

theorem Grows.refl (f : Files) : Grows f f := fun _ => .inl rfl

theorem Grows.trans {f'' : Files} (h : Grows f f') (h' : Grows f' f'') : Grows f f'' := by
  intro q
  rcases h q with hq | ⟨hnone, hnew⟩
  · rcases h' q with hq' | ⟨hnone, hnew⟩
    · exact .inl (hq'.trans hq)
    · exact .inr ⟨hq ▸ hnone, hnew⟩
  · rcases h' q with hq' | ⟨hq', -⟩
    · exact .inr ⟨hnone, hq'.trans hnew⟩
    · exact nomatch hnew.symm.trans hq'

/-- An empty directory takes the place of nothing. -/
theorem grows_set_empty (hnone : f.view place = none) :
    Grows f (f.set place (some .empty)) := by
  intro q
  by_cases hprefix : place <+: q
  · obtain ⟨more, rfl⟩ := hprefix
    have hold : f.view (place ++ more) = none := by
      by_cases hmore : more = []
      · rw [hmore, List.append_nil]
        exact hnone
      · exact view_below (by simp [hnone]) hmore
    have hview : ∀ {node : Option FileNode},
        (f.root.set (some .empty) place).get? (place ++ more) = node →
          (f.set place (some .empty)).view (place ++ more) = node.map FileNode.content? :=
      fun h => congrArg (Option.map FileNode.content?) h
    rcases FileNode.get?_set_some f.root .empty place more with hnew | ⟨-, hmissing⟩
    · cases more with
      | nil => exact .inr ⟨hold, hview hnew⟩
      | cons name more => exact .inl ((hview hnew).trans hold.symm)
    · have hgone : (f.root.set (some .empty) place).get? (place ++ more) = none := by
        rw [FileNode.get?_append, hmissing]
        rfl
      exact .inl ((hview hgone).trans hold.symm)
  · exact .inl (FileNode.view_set hprefix)

end Files
end CheckScript
