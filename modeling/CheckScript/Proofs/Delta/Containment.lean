/-
Where the files of a delta are.

Whatever the target is, the source is a file of the work directory, and of all files only such that
are directly in the work directory are changed before the command is started.  The path of the
artifact is that of a file of the work directory too, unless the name of the target is two dots and
an extension: then it is the directory above, and the call is refused after the source was written.
-/
import CheckScript.Proofs.Delta.Prepare

namespace CheckScript

/-- The path is that of a file of the directory: it goes one component further, which is a plain
name. -/
def Path.IsChild (p directory : Path) : Prop :=
  ∃ name, Path.Plain name ∧ p.components = directory.components ++ [.name (String.ofList name)]

/-- Apart from new directories, nothing is changed but files of the directory. -/
def Files.ChangedIn (directory : Path) (f f' : Files) : Prop :=
  ∀ q, f'.view q = f.view q ∨ f.view q = none ∧ f'.view q = some none ∨
    ∃ d name, f'.directoryAt directory = .ok d ∧ Path.Plain name ∧ q = d ++ [String.ofList name]

namespace DeltaCommand

open Files

variable {g : DeltaCommand} {source target n : String} {f made written ready : Files}
  {d : List String}

/-! ## The paths -/

theorem isChild_below {directory : Path} {name : List Char} (hname : Path.Plain name) :
    (directory.below name).IsChild directory := by
  refine ⟨name, hname, ?_⟩
  rw [directory.components_below hname.slash hname.dot, hname.ofPiece]
  rfl

/-- The directory above is no file of the directory. -/
theorem not_isChild_dots (directory : Path) : ¬(directory.below ['.', '.']).IsChild directory := by
  rintro ⟨name, -, hcomponents⟩
  rw [directory.components_below (by decide) (by decide)] at hcomponents
  cases (List.append_cancel_left hcomponents : [Path.Component.parent] = _)

theorem outputPath_isChild_iff (g : DeltaCommand) (hn : Path.Plain n.toList) :
    (g.outputPath n).IsChild g.workDirectory ↔
      ¬∃ rest, n.toList = '.' :: '.' :: rest ∧ '.' ∉ rest := by
  rw [g.outputPath_eq hn, ← Path.stem_eq_dot_iff hn]
  constructor
  · intro hchild hstem
    rw [artifactName, Path.withEnding, if_pos hstem] at hchild
    exact not_isChild_dots g.workDirectory hchild
  · intro hstem
    exact isChild_below
      ((Path.plain_withEnding_iff hn (by decide) (List.cons_ne_nil _ _)).mpr hstem)

/-! ## The files -/

theorem changedIn_of_grows {directory : Path} (h : Grows f ready) : ChangedIn directory f ready :=
  fun q => (h q).imp id .inl

theorem changedIn_of_written (hn : Path.Plain n.toList) (hgrows : Grows f made)
    (h : Written g source n made written d) : ChangedIn g.workDirectory f written := by
  intro q
  by_cases hq : q = d ++ [n]
  · refine .inr (.inr ⟨d, n.toList, h.directory, hn, ?_⟩)
    rw [hq, String.ofList_toList]
  · rw [h.view, if_neg hq]
    exact (hgrows q).imp id .inl

theorem changedIn_of_ready (h : Ready g n written ready d)
    (hwritten : ChangedIn g.workDirectory f written)
    (hdirectory : written.directoryAt g.workDirectory = .ok d) :
    ChangedIn g.workDirectory f ready := by
  intro q
  by_cases hq : q = d ++ [String.ofList (artifactName n.toList)]
  · exact .inr (.inr ⟨d, _, h.directory, h.plain, hq⟩)
  · rw [h.view q hq]
    rcases hwritten q with hsame | hnew | ⟨d', name, hd', hname, hq'⟩
    · exact .inl hsame
    · exact .inr (.inl hnew)
    · obtain rfl := Except.ok.inj (hdirectory.symm.trans hd')
      exact .inr (.inr ⟨_, name, h.directory, hname, hq'⟩)

theorem Prepares.changedIn {result : Except FileFault Unit} (hn : Path.Plain n.toList)
    (hf : f.Tidy) (h : Prepares g source n f result ready) : ChangedIn g.workDirectory f ready := by
  cases h with
  | unmade => exact changedIn_of_grows (.refl f)
  | unwritten hmade => exact changedIn_of_grows (makeDirectories_grows hmade)
  | unready hmade hwritten =>
    obtain ⟨d, hd⟩ := written_of_writeText hn hwritten
    exact changedIn_of_written hn (makeDirectories_grows hmade) hd
  | ready hmade hwritten hready =>
    obtain ⟨d, hd⟩ := written_of_writeText hn hwritten
    have htidy := write_tidy hwritten (makeDirectories_tidy hmade hf)
    exact changedIn_of_ready (ready_of_removeOld hn htidy hd.toInside hready)
      (changedIn_of_written hn (makeDirectories_grows hmade) hd) hd.directory

/-- A path to the directory above is never free for an artifact. -/
theorem Prepares.refused {result : Except FileFault Unit} (hn : Path.Plain n.toList)
    (hdots : artifactName n.toList = ['.', '.']) (h : Prepares g source n f result ready) :
    ∃ fault, result = .error fault := by
  cases h with
  | unmade => exact ⟨_, rfl⟩
  | unwritten => exact ⟨_, rfl⟩
  | unready => exact ⟨_, rfl⟩
  | ready _ hwritten hready =>
    obtain ⟨d, hd⟩ := written_of_writeText hn hwritten
    exact absurd hdots (artifactName_ne_dots hn hd.toInside hready)

/-- For any target: without a file name in it the call fails and nothing is touched.  With one, the
source is a file of the work directory; the artifact is one too, unless the name is two dots and
something without a dot, and then a request for a file is refused.  What is changed before the
command is started, or without it, are files of the work directory, and so is what is returned. -/
theorem work_directory_kept (g : DeltaCommand) (shell : Shell) (hf : f.Tidy)
    (source target : String) :
    ((Path.mk target).fileName = none →
      g.build shell source target f = (.error (.delta target .noFileName), f)) ∧
    ∀ n, (Path.mk target).fileName = some n →
      Path.Plain n.toList ∧ (g.sourcePath n).IsChild g.workDirectory ∧
      ((g.outputPath n).IsChild g.workDirectory ↔
        ¬∃ rest, n.toList = '.' :: '.' :: rest ∧ '.' ∉ rest) ∧
      ((∃ rest, n.toList = '.' :: '.' :: rest ∧ '.' ∉ rest) →
        ∃ fault, (g.build shell source target f).1 = .error (.system fault)) ∧
      (∃ prepared, ChangedIn g.workDirectory f prepared ∧
        ((g.build shell source target f).2 = prepared ∨
          (g.build shell source target f).2 = (shell (g.call target n) prepared).files)) ∧
      ∀ p, (g.build shell source target f).1 = .ok p →
        p = g.outputPath n ∧ p.IsChild g.workDirectory := by
  refine ⟨fun hname => (build_of_no_name hname shell g source f).2, fun n hname => ?_⟩
  have hn := plain_of_fileName hname
  have hprepares := prepares g source n f
  have hsource : (g.sourcePath n).IsChild g.workDirectory := by
    rw [g.sourcePath_eq hn]
    exact isChild_below hn
  have hrefused : (∃ rest, n.toList = '.' :: '.' :: rest ∧ '.' ∉ rest) →
      ∃ fault, (g.build shell source target f).1 = .error (.system fault) := by
    intro hdots
    have hartifact : artifactName n.toList = ['.', '.'] :=
      if_pos ((Path.stem_eq_dot_iff hn).mpr hdots)
    obtain ⟨fault, hfault⟩ := hprepares.refused hn hartifact
    exact ⟨fault, congrArg Prod.fst (build_of_refused hname hfault shell)⟩
  refine ⟨hn, hsource, g.outputPath_isChild_iff hn, hrefused,
    ⟨_, hprepares.changedIn hn hf, ?_⟩, fun p hp => ?_⟩
  · rcases build_cases hname g source f with
      ⟨-, failure, hbuild⟩ | ⟨-, -, hbuild⟩
    · exact .inl (congrArg Prod.snd (hbuild shell))
    · exact .inr (congrArg Prod.snd (hbuild shell))
  · have hplain : ¬∃ rest, n.toList = '.' :: '.' :: rest ∧ '.' ∉ rest := by
      intro hdots
      obtain ⟨fault, hfault⟩ := hrefused hdots
      exact nomatch hp.symm.trans hfault
    rcases build_cases hname g source f with
      ⟨-, failure, hbuild⟩ | ⟨-, -, hbuild⟩
    · rw [hbuild] at hp
      exact nomatch hp
    · rw [hbuild] at hp
      obtain ⟨rfl, -⟩ := outcome_eq_ok hp
      exact ⟨rfl, (g.outputPath_isChild_iff hn).mpr hplain⟩

/-- A target that points elsewhere and ends with a slash is built in the work directory. -/
theorem work_directory_kept_elsewhere :
    Files.Tidy ⟨.empty, []⟩ ∧ (Path.mk "../src/main.rs/").fileName = some "main.rs" ∧
      (copier.sourcePath "main.rs").IsChild copier.workDirectory ∧
      (copier.outputPath "main.rs").IsChild copier.workDirectory ∧
      ∃ p, (copier.build copying "x" "../src/main.rs/" ⟨.empty, []⟩).1 = .ok p ∧
        p = copier.outputPath "main.rs" := by
  have hname : (Path.mk "../src/main.rs/").fileName = some "main.rs" := by decide +kernel
  have hbuilt : (copier.build copying "x" "../src/main.rs/" ⟨.empty, []⟩).1 =
      .ok ⟨"/work/main.delta"⟩ := by
    decide +kernel
  obtain ⟨-, hsource, -, -, -, hreturned⟩ :=
    (work_directory_kept copier copying (f := ⟨.empty, []⟩) .empty "x" "../src/main.rs/").2 _ hname
  obtain ⟨hp, hchild⟩ := hreturned _ hbuilt
  exact ⟨.empty, hname, hsource, hp ▸ hchild, _, hbuilt, hp⟩

/-- A name of two dots and an extension: the path for the artifact is that of the directory above.
The source is written, and then the request to remove that directory is refused. -/
theorem dotted_target_points_above :
    (Path.mk "..foo").fileName = some "..foo" ∧
      (copier.outputPath "..foo").components = copier.workDirectory.components ++ [.parent] ∧
      ¬(copier.outputPath "..foo").IsChild copier.workDirectory ∧
      (copier.build copying "x" "..foo" ⟨.empty, []⟩).1 = .error (.system .isDirectory) ∧
      (copier.build copying "x" "..foo" ⟨.empty, []⟩).2.readText ⟨"/work/..foo"⟩ = .ok "x" := by
  have houtput : copier.outputPath "..foo" = copier.workDirectory.below ['.', '.'] := by
    decide +kernel
  refine ⟨by decide +kernel, by decide +kernel, ?_, by decide +kernel, by decide +kernel⟩
  rw [houtput]
  exact not_isChild_dots copier.workDirectory

end DeltaCommand
end CheckScript
