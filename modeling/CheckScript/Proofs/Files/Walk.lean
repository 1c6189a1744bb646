/-
How paths are followed, and what requests for files come to.

A path is followed piece by piece, so that following a joined path is following one part and then
the other (`walk_append`).  Only directories matter on the way: as long as they stay, a path leads
where it led before (`locate_of_stay`).  The path of a file in a directory leads to the place of the
directory and one name more (`locate_below_plain`).
-/
import CheckScript.Proofs.Files.Tree
import CheckScript.Proofs.Path

namespace CheckScript
namespace Files

variable {f f' : Files} {place d e : List String} {p : Path} {name : List Char}

/-! ## Following a path -/

/-- The directory that a path names.  An empty path stands for the one that paths are read from. -/
def directoryAt (f : Files) (p : Path) : Except FileFault (List String) :=
  f.locate (if p.text.isEmpty then ⟨"."⟩ else p)

theorem walk_append (f : Files) (place : List String) (pieces more : List (List Char)) :
    f.walk place (pieces ++ more) = (f.walk place pieces).bind fun d => f.walk d more := by
  induction pieces generalizing place with
  | nil => rfl
  | cons piece pieces ih =>
    rw [List.cons_append, walk, walk]
    split
    · rfl
    · rfl
    · split
      · exact ih place
      · split
        · rfl
        · exact ih _
      · exact ih _

/-- The working directory is not looked at on the way. -/
theorem walk_mk (f : Files) (here place : List String) (pieces : List (List Char)) :
    (Files.mk f.root here).walk place pieces = f.walk place pieces := by
  induction pieces generalizing place with
  | nil => rfl
  | cons piece pieces ih =>
    rw [walk, walk, show (Files.mk f.root here).get? place = f.get? place from rfl]
    simp only [ih]

/-- An absolute path leads to the same node from every working directory. -/
theorem find_of_isAbsolute (f : Files) (here : List String) (h : p.isAbsolute = true) :
    (Files.mk f.root here).find p = f.find p := by
  have hplace : (Files.mk f.root here).locate p = f.locate p := by
    rw [locate, locate, h, if_pos rfl, if_pos rfl, walk_mk]
  rw [find, find, hplace]
  rfl

theorem walk_missing (h : f.get? place = none) (piece : List Char) (pieces : List (List Char)) :
    f.walk place (piece :: pieces) = .error .notFound := by
  rw [walk, h]

theorem walk_file {bytes : ByteArray} (h : f.get? place = some (.file bytes)) (piece : List Char)
    (pieces : List (List Char)) : f.walk place (piece :: pieces) = .error .notDirectory := by
  rw [walk, h]

/-- A path goes on from a directory only. -/
theorem view_of_walk {piece : List Char} {pieces : List (List Char)}
    (h : f.walk place (piece :: pieces) = .ok d) : f.view place = some none := by
  cases hnode : f.get? place with
  | none => exact nomatch (walk_missing hnode piece pieces).symm.trans h
  | some node =>
    cases node with
    | file => exact nomatch (walk_file hnode piece pieces).symm.trans h
    | directory entries => exact view_eq_directory.mpr ⟨entries, hnode⟩

/-- A plain name leads one place further. -/
theorem walk_plain (hview : f.view place = some none) (hname : Path.Plain name) :
    f.walk place [name] = .ok e ↔
      (String.ofList name).utf8ByteSize ≤ maxNameSize ∧ e = place ++ [String.ofList name] := by
  obtain ⟨entries, hentries⟩ := view_eq_directory.mp hview
  simp only [walk, hentries, hname.ofPiece]
  split
  · rename_i hsize
    exact ⟨nofun, fun h => absurd h.1 (Nat.not_le.mpr hsize)⟩
  · rename_i hsize
    exact ⟨fun h => ⟨Nat.not_lt.mp hsize, (Except.ok.inj h).symm⟩, fun h => congrArg _ h.2.symm⟩

/-- A piece that stands for nothing leads nowhere. -/
theorem walk_nothing {piece : List Char} (hpiece : Path.ofPiece piece = none) :
    (f.walk place [piece]).bind (fun d => f.walk d [name]) = f.walk place [name] := by
  cases hnode : f.get? place with
  | none =>
    rw [walk_missing hnode, walk_missing hnode]
    rfl
  | some node =>
    cases node with
    | file =>
      rw [walk_file hnode, walk_file hnode]
      rfl
    | directory =>
      rw [walk, hnode, hpiece]
      rfl

theorem locate_nul (hne : p.text ≠ "") (hnul : '\x00' ∈ p.text.toList) :
    f.locate p = .error .nulInPath := by
  simp [locate, hne, hnul]

theorem locate_plain (hne : p.text ≠ "") (hnul : '\x00' ∉ p.text.toList) :
    f.locate p = f.walk (if p.isAbsolute then [] else f.here) (Text.cut '/' p.text.toList) := by
  simp [locate, hne, hnul]

/-- The path of a file in a directory is followed to the directory and then to the name. -/
theorem locate_below (f : Files) (p : Path) (hslash : '/' ∉ name) (hne : name ≠ [])
    (hnul : '\x00' ∉ name) :
    f.locate (p.below name) = (f.directoryAt p).bind fun d => f.walk d [name] := by
  have hbelow := p.text_below_ne hne
  by_cases hp : p.text = ""
  · obtain ⟨pieces, hcut, ⟨-, rfl⟩ | ⟨h, -⟩⟩ := p.cut_below hslash
    · have hplain : '\x00' ∉ (p.below name).text.toList := fun h =>
        ((Path.mem_below (by decide)).mp h).elim (by simp [hp]) hnul
      have hrelative : (p.below name).isAbsolute = false := by
        rw [p.isAbsolute_below hslash, Path.isAbsolute, hp]
        rfl
      rw [directoryAt, if_pos (String.isEmpty_iff.mpr hp), locate_plain hbelow hplain, hrelative,
        p.text_below, hcut]
      exact (walk_nothing (show Path.ofPiece ['.'] = none from rfl)).symm
    · exact absurd hp h
  · rw [directoryAt, if_neg (mt String.isEmpty_iff.mp hp)]
    by_cases hdir : '\x00' ∈ p.text.toList
    · rw [locate_nul hp hdir, locate_nul hbelow ((Path.mem_below (by decide)).mpr (.inl hdir))]
      rfl
    · have hplain : '\x00' ∉ (p.below name).text.toList := fun h =>
        ((Path.mem_below (by decide)).mp h).elim hdir hnul
      rw [locate_plain hp hdir, locate_plain hbelow hplain, p.isAbsolute_below hslash,
        p.text_below]
      obtain ⟨pieces, hcut, ⟨h, -⟩ | ⟨-, -, hpieces | hpieces⟩⟩ := p.cut_below hslash
      · exact absurd h hp
      · rw [hcut, hpieces, walk_append]
      · rw [hcut, hpieces, walk_append, walk_append]
        cases f.walk (if p.isAbsolute then [] else f.here) pieces with
        | error => rfl
        | ok d => exact (walk_nothing (show Path.ofPiece [] = none from rfl)).symm

/-- The file with a plain name is a place further than the directory. -/
theorem locate_below_plain (hname : Path.Plain name) :
    f.locate (p.below name) = .ok e ↔
      '\x00' ∉ name ∧ (String.ofList name).utf8ByteSize ≤ maxNameSize ∧
        ∃ d, f.directoryAt p = .ok d ∧ f.view d = some none ∧ e = d ++ [String.ofList name] := by
  by_cases hnul : '\x00' ∈ name
  · rw [locate_nul (p.text_below_ne hname.some) ((Path.mem_below (by decide)).mpr (.inr hnul))]
    exact ⟨nofun, fun h => absurd hnul h.1⟩
  · rw [locate_below f p hname.slash hname.some hnul]
    constructor
    · intro h
      cases hd : f.directoryAt p with
      | error => exact nomatch hd ▸ h
      | ok d =>
        rw [hd] at h
        have hwalk : f.walk d [name] = .ok e := h
        obtain ⟨hsize, rfl⟩ := (walk_plain (view_of_walk hwalk) hname).mp hwalk
        exact ⟨hnul, hsize, d, rfl, view_of_walk hwalk, rfl⟩
    · rintro ⟨-, hsize, d, hd, hview, rfl⟩
      rw [hd]
      exact (walk_plain hview hname).mpr ⟨hsize, rfl⟩

/-- The directory above is a directory too. -/
theorem view_dropLast (h : f.view place = some none) : f.view place.dropLast = some none := by
  rcases List.eq_nil_or_concat place with rfl | ⟨above, name, rfl⟩
  · exact h
  · rw [List.concat_eq_append] at h ⊢
    rw [List.dropLast_concat]
    exact view_above (h ▸ Option.some_ne_none _)

/-- Two dots in a directory are the directory above it. -/
theorem locate_below_dots (hd : f.directoryAt p = .ok d) (hview : f.view d = some none) :
    f.locate (p.below ['.', '.']) = .ok d.dropLast := by
  obtain ⟨entries, hentries⟩ := view_eq_directory.mp hview
  rw [locate_below f p (by decide) (List.cons_ne_nil _ _) (by decide), hd]
  show f.walk d [['.', '.']] = _
  rw [walk, hentries]
  rfl

/-! ## Directories that stay -/

/-- Paths are read from the same directory, and no directory is lost. -/
def Stay (f f' : Files) : Prop :=
  f'.here = f.here ∧ ∀ q, f.view q = some none → f'.view q = some none

/-- A change where no directory stands loses none. -/
theorem stay_of_view {change : Option (Option ByteArray)} (hold : f.view place ≠ some none)
    (hview : ∀ q, f'.view q = if q = place then change else f.view q)
    (hhere : f'.here = f.here) : Stay f f' := by
  refine ⟨hhere, fun q hq => ?_⟩
  rw [hview, if_neg]
  · exact hq
  · rintro rfl
    exact hold hq

theorem walk_of_stay (hstay : Stay f f') {pieces : List (List Char)}
    (h : f.walk place pieces = .ok d) : f'.walk place pieces = .ok d := by
  induction pieces generalizing place with
  | nil => exact h
  | cons piece pieces ih =>
    obtain ⟨entries, hentries⟩ := view_eq_directory.mp (view_of_walk h)
    obtain ⟨entries', hentries'⟩ := view_eq_directory.mp (hstay.2 place (view_of_walk h))
    simp only [walk, hentries, hentries'] at h ⊢
    revert h
    split
    · exact ih
    · split
      · exact id
      · exact ih
    · exact ih

theorem locate_of_stay (hstay : Stay f f') (h : f.locate p = .ok d) : f'.locate p = .ok d := by
  unfold locate at h ⊢
  rw [hstay.1]
  revert h
  split
  · exact nofun
  · split
    · exact nofun
    · exact walk_of_stay hstay

theorem directoryAt_of_stay (hstay : Stay f f') (h : f.directoryAt p = .ok d) :
    f'.directoryAt p = .ok d := locate_of_stay hstay h

/-! ## Making directories -/

/-- What an empty directory in the place of nothing leaves true, making directories leaves true. -/
theorem makeAlong_keeps {P : Files → Prop}
    (hstep : ∀ f place, f.view place = none → P f → P (f.set place (some .empty)))
    {pieces : List (List Char)} (h : f.makeAlong place pieces = .ok f') (hP : P f) : P f' := by
  induction pieces generalizing f place with
  | nil => exact Except.ok.inj h ▸ hP
  | cons piece pieces ih =>
    rw [makeAlong] at h
    revert h
    split
    · exact fun h => ih h hP
    · dsimp only
      split
      · exact nofun
      · split
        · exact fun h => ih h hP
        · split <;> exact nofun
        · rename_i hnone
          exact fun h => ih h (hstep _ _ (view_eq_none.mpr hnone) hP)
    · exact fun h => ih h hP

theorem makeDirectories_keeps {P : Files → Prop}
    (hstep : ∀ f place, f.view place = none → P f → P (f.set place (some .empty)))
    (h : f.makeDirectories p = .ok f') (hP : P f) : P f' := by
  unfold makeDirectories at h
  split at h
  · cases h
  · exact makeAlong_keeps hstep h hP

theorem makeDirectories_grows (h : f.makeDirectories p = .ok f') : Grows f f' :=
  makeDirectories_keeps (fun _ _ hnone hgrows => hgrows.trans (grows_set_empty hnone)) h (.refl f)

theorem makeDirectories_tidy (h : f.makeDirectories p = .ok f') (hf : f.Tidy) : f'.Tidy :=
  makeDirectories_keeps (fun _ _ _ htidy => htidy.set (fun _ hv => Option.some.inj hv ▸ .empty) _)
    h hf

/-! ## Requests -/

theorem holds_iff : f.holds p = true ↔ ∃ place, f.locate p = .ok place ∧ f.view place ≠ none := by
  unfold holds find
  cases f.locate p with
  | error => simp
  | ok place => cases hnode : f.get? place <;> simp [hnode, view_eq_none]

theorem write_eq_ok {bytes : ByteArray} :
    f.write p bytes = .ok f' ↔ ∃ place, f.locate p = .ok place ∧ f.view place ≠ some none ∧
      f.set place (some (.file bytes)) = f' := by
  unfold write
  cases f.locate p with
  | error => simp
  | ok place =>
    cases hnode : f.get? place with
    | none => simp [hnode, view_eq_directory]
    | some node => cases node <;> simp [hnode, view_eq_directory]

theorem removeFile_eq_ok :
    f.removeFile p = .ok f' ↔ ∃ place, f.locate p = .ok place ∧
      (∃ bytes, f.view place = some (some bytes)) ∧ f.set place none = f' := by
  unfold removeFile
  cases f.locate p with
  | error => simp
  | ok place =>
    cases hnode : f.get? place with
    | none => simp [hnode, view_eq_file]
    | some node => cases node <;> simp [hnode, view_eq_file]

theorem write_tidy {bytes : ByteArray} (h : f.write p bytes = .ok f') (hf : f.Tidy) : f'.Tidy := by
  obtain ⟨place, -, -, rfl⟩ := write_eq_ok.mp h
  exact hf.set (fun _ hv => Option.some.inj hv ▸ .file bytes) place

theorem removeFile_tidy (h : f.removeFile p = .ok f') (hf : f.Tidy) : f'.Tidy := by
  obtain ⟨place, -, -, rfl⟩ := removeFile_eq_ok.mp h
  exact hf.set (fun v hv => absurd hv.symm (Option.some_ne_none v)) place

theorem fromUTF8?_eq_some (bytes : ByteArray) (text : String) :
    String.fromUTF8? bytes = some text ↔ bytes = text.toUTF8 := by
  unfold String.fromUTF8?
  constructor
  · intro h
    split at h
    · exact congrArg String.toUTF8 (Option.some.inj h)
    · cases h
  · rintro rfl
    exact dif_pos text.isValidUTF8

theorem readText_eq_ok {text : String} :
    f.readText p = .ok text ↔
      ∃ place, f.locate p = .ok place ∧ f.view place = some (some text.toUTF8) := by
  unfold readText read find
  cases f.locate p with
  | error => simp
  | ok place =>
    cases hnode : f.get? place with
    | none => simp [hnode, view_eq_file]
    | some node =>
      cases node with
      | directory => simp [hnode, view_eq_file]
      | file bytes =>
        have hbytes := fromUTF8?_eq_some bytes text
        cases htext : String.fromUTF8? bytes <;> simp_all [view_eq_file]

end Files
end CheckScript
