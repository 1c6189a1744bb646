/-
What is in place when a command is started to build a delta.

Whatever earlier calls left in the work directory, no artifact is there at the start, so that one
that is there at the end was made by this very command.  The source is in its place with its text,
unless the target has the extension of artifacts: then the two files are one, and what was written
is removed as an old artifact.

The two paths are read from the directory of the caller, as the caller reads them.  The command
stands in the work directory.  It finds the same files there if the work directory has an absolute
path (`find_inputs_absolute`), and others may be meant by the paths otherwise.
-/
import CheckScript.Proofs.Delta.Prepare

namespace CheckScript
namespace DeltaCommand

open Files

variable {g : DeltaCommand} {source target n : String} {f made written ready : Files}
  {d : List String} {call : ShellCall}

/-! ## Earlier calls -/

/-- No command line makes a directory list a name twice. -/
def KeepsTidy (shell : Shell) : Prop := ∀ call f, f.Tidy → (shell call f).files.Tidy

/-- The files after earlier calls with their source texts and targets. -/
def after (shell : Shell) (g : DeltaCommand) (earlier : List (String × String)) (f : Files) :
    Files :=
  earlier.foldl (fun f call => (g.build shell call.1 call.2 f).2) f

theorem build_tidy {shell : Shell} (hshell : KeepsTidy shell) (hf : f.Tidy) :
    (g.build shell source target f).2.Tidy := by
  cases hname : (Path.mk target).fileName with
  | none =>
    rw [(build_of_no_name hname shell g source f).2]
    exact hf
  | some n =>
    have hprepared := (prepares g source n f).tidy hf
    rcases build_cases hname g source f with
      ⟨-, failure, hbuild⟩ | ⟨-, -, hbuild⟩
    · rw [hbuild]
      exact hprepared
    · rw [hbuild]
      exact hshell _ _ hprepared

theorem after_tidy {shell : Shell} (hshell : KeepsTidy shell) (hf : f.Tidy)
    (earlier : List (String × String)) : (g.after shell earlier f).Tidy := by
  induction earlier generalizing f with
  | nil => exact hf
  | cons call earlier ih => exact ih (build_tidy hshell hf)

/-! ## The files at the start -/

/-- A name with the extension of artifacts is the name of its own artifact. -/
theorem artifactName_eq_self_iff (hname : (Path.mk target).fileName = some n)
    (hplain : Path.Plain (artifactName n.toList)) :
    artifactName n.toList = n.toList ↔ (Path.mk target).extension = some "delta" := by
  have hn := plain_of_fileName hname
  have hstem := (Path.plain_withEnding_iff hn (by decide) (List.cons_ne_nil _ _)).mp hplain
  rw [artifactName, Path.withEnding_eq_self_iff hn hstem (by decide), extension_of_fileName hname]
  cases (Path.splitName n.toList).2 with
  | none => exact ⟨nofun, nofun⟩
  | some ending =>
    rw [Option.map_some, Option.some_inj, Option.some_inj]
    exact ⟨fun h => h ▸ rfl, fun h => String.ofList_injective h⟩

theorem outputPath_eq_sourcePath (g : DeltaCommand) (hn : Path.Plain n.toList)
    (h : artifactName n.toList = n.toList) : g.outputPath n = g.sourcePath n := by
  rw [g.outputPath_eq hn, g.sourcePath_eq hn, h]

/-- The source is in its place unless it was taken for an old artifact. -/
theorem source_at_start (hn : Path.Plain n.toList) (hwritten : Written g source n made written d)
    (hready : Ready g n written ready d) :
    ready.readText (g.sourcePath n) = .ok source ↔ artifactName n.toList ≠ n.toList := by
  constructor
  · intro hread hsame
    obtain ⟨place, hplace, hview⟩ := readText_eq_ok.mp hread
    have hholds : ready.holds (g.sourcePath n) = true :=
      holds_iff.mpr ⟨place, hplace, hview ▸ Option.some_ne_none _⟩
    rw [← outputPath_eq_sourcePath g hn hsame, hready.absent] at hholds
    cases hholds
  · intro hother
    have hplace : ready.locate (g.sourcePath n) = .ok (d ++ [n]) := by
      rw [g.sourcePath_eq hn, locate_below_plain hn, String.ofList_toList]
      exact ⟨hready.fits.1, hready.fits.2, d, hready.directory, hready.there, rfl⟩
    have hne : d ++ [n] ≠ d ++ [String.ofList (artifactName n.toList)] := by
      intro h
      have hlast : n = String.ofList (artifactName n.toList) := by simpa using h
      exact hother (String.toList_ofList.symm.trans (congrArg String.toList hlast.symm))
    refine readText_eq_ok.mpr ⟨_, hplace, ?_⟩
    rw [hready.view _ hne, hwritten.view, if_pos rfl]

/-- An absolute work directory makes the two paths mean the same files from every directory, that of
the command among them. -/
theorem find_inputs_absolute (g : DeltaCommand) (hn : Path.Plain n.toList)
    (habsolute : g.workDirectory.isAbsolute = true) (f : Files) (here : List String) :
    (Files.mk f.root here).find (g.sourcePath n) = f.find (g.sourcePath n) ∧
      (Files.mk f.root here).find (g.outputPath n) = f.find (g.outputPath n) := by
  have hartifact : '/' ∉ artifactName n.toList := by
    by_cases hdots : artifactName n.toList = ['.', '.']
    · rw [hdots]
      decide
    · exact (plain_artifactName hn hdots).slash
  rw [g.sourcePath_eq hn, g.outputPath_eq hn]
  exact ⟨find_of_isAbsolute f here ((g.workDirectory.isAbsolute_below hn.slash).trans habsolute),
    find_of_isAbsolute f here ((g.workDirectory.isAbsolute_below hartifact).trans habsolute)⟩

/-- What the steps before the start have come to when none was refused. -/
theorem ready_of_prepare (hf : f.Tidy) (hn : Path.Plain n.toList)
    (h : g.prepare source n f = (.ok (), ready)) :
    ∃ made written d, Written g source n made written d ∧ Ready g n written ready d := by
  have hprepares := prepares g source n f
  rw [h] at hprepares
  cases hprepares with
  | ready hmade hwritten hready =>
    obtain ⟨d, hd⟩ := written_of_writeText hn hwritten
    have htidy := write_tidy hwritten (makeDirectories_tidy hmade hf)
    exact ⟨_, _, d, hd, ready_of_removeOld hn htidy hd.toInside hready⟩

/-- After any earlier calls: if the command is started, no artifact is there, and the source is in
its place exactly if the target has not the extension of artifacts; with it the artifact is to
replace the source, which is gone.  An artifact that is returned was made by this run of the
command.  If the command is not started the call fails. -/
theorem inputs_in_place (g : DeltaCommand) {shell : Shell} (hshell : KeepsTidy shell)
    (hf : f.Tidy) (earlier : List (String × String)) (source target : String) :
    (g.start? source target (g.after shell earlier f) = none →
      ∃ failure, (g.build shell source target (g.after shell earlier f)).1 = .error failure) ∧
    ∀ call ready, g.start? source target (g.after shell earlier f) = some (call, ready) →
      ∃ n, (Path.mk target).fileName = some n ∧ call = g.call target n ∧
        ready.holds (g.outputPath n) = false ∧
        (ready.readText (g.sourcePath n) = .ok source ↔
          (Path.mk target).extension ≠ some "delta") ∧
        ((Path.mk target).extension = some "delta" → g.sourcePath n = g.outputPath n) ∧
        (g.build shell source target (g.after shell earlier f)).2 = (shell call ready).files ∧
        ∀ p, (g.build shell source target (g.after shell earlier f)).1 = .ok p →
          p = g.outputPath n ∧ (shell call ready).status = .success ∧
            (shell call ready).files.holds p = true := by
  have htidy := after_tidy (g := g) hshell hf earlier
  generalize g.after shell earlier f = before at htidy
  cases hname : (Path.mk target).fileName with
  | none =>
    obtain ⟨hstart, hbuild⟩ := build_of_no_name hname shell g source before
    rw [hstart, hbuild]
    exact ⟨fun _ => ⟨_, rfl⟩, nofun⟩
  | some n =>
    rcases build_cases hname g source before with
      ⟨hstart, failure, hbuild⟩ | ⟨hstart, hok, hbuild⟩
    · rw [hstart, hbuild]
      exact ⟨fun _ => ⟨_, rfl⟩, nofun⟩
    · refine ⟨fun h => absurd (hstart.symm.trans h) (Option.some_ne_none _), fun call ready h => ?_⟩
      obtain ⟨rfl, rfl⟩ := Prod.mk.inj (Option.some.inj (hstart.symm.trans h))
      have hn := plain_of_fileName hname
      obtain ⟨made, written, d, hwritten, hready⟩ := ready_of_prepare htidy hn (Prod.ext hok rfl)
      have hsame := artifactName_eq_self_iff hname hready.plain
      refine ⟨n, rfl, rfl, hready.absent,
        (source_at_start hn hwritten hready).trans (not_congr hsame),
        fun hext => (outputPath_eq_sourcePath g hn (hsame.mpr hext)).symm, ?_, fun p hp => ?_⟩
      · rw [hbuild]
      · rw [hbuild] at hp
        exact outcome_eq_ok hp

theorem copying_tidy : KeepsTidy copying := by
  intro call f hf
  unfold copying
  split
  · exact hf
  · split
    · exact hf
    · rename_i copied hcopied
      exact write_tidy hcopied hf

/-- The files after a first call of `copier` for `main.rs`. -/
def usedOnce : Files := copier.after copying [("old", "main.rs")] ⟨.empty, []⟩

/-- The artifact of the first call is there after it, but not when the second one starts. -/
theorem inputs_in_place_copied :
    KeepsTidy copying ∧ Files.Tidy ⟨.empty, []⟩ ∧ usedOnce.holds ⟨"/work/main.delta"⟩ = true ∧
      ∃ call ready, copier.start? "new" "src/main.rs" usedOnce = some (call, ready) ∧
        ready.holds ⟨"/work/main.delta"⟩ = false ∧
        ready.readText ⟨"/work/main.rs"⟩ = .ok "new" ∧
        (copier.build copying "new" "src/main.rs" usedOnce).1 = .ok ⟨"/work/main.delta"⟩ ∧
        (copying call ready).files.holds ⟨"/work/main.delta"⟩ = true := by
  have hrun : (copier.start? "new" "src/main.rs" usedOnce).isSome = true := by decide +kernel
  obtain ⟨⟨call, ready⟩, hstart⟩ := Option.isSome_iff_exists.mp hrun
  obtain ⟨n, hname, -, habsent, hsource, -, -, hok⟩ :=
    (inputs_in_place copier copying_tidy (f := ⟨.empty, []⟩) .empty [("old", "main.rs")] "new"
      "src/main.rs").2 call ready hstart
  have hn : (Path.mk "src/main.rs").fileName = some "main.rs" := by decide +kernel
  obtain rfl := Option.some.inj (hn.symm.trans hname)
  have houtput : copier.outputPath "main.rs" = ⟨"/work/main.delta"⟩ := by decide +kernel
  have hinput : copier.sourcePath "main.rs" = ⟨"/work/main.rs"⟩ := by decide +kernel
  have hbuilt :
      (copier.build copying "new" "src/main.rs" usedOnce).1 = .ok ⟨"/work/main.delta"⟩ := by
    decide +kernel
  rw [houtput] at habsent
  rw [hinput] at hsource
  exact ⟨copying_tidy, .empty, by decide +kernel, call, ready, hstart, habsent,
    hsource.mpr (by decide +kernel), hbuilt, (hok _ hbuilt).2.2⟩

/-- A target with the extension of artifacts: the command is given the path of a source that is
not there any more. -/
theorem artifact_target_loses_source :
    ∃ call ready, copier.start? "text" "p.delta" ⟨.empty, []⟩ = some (call, ready) ∧
      call.environment = [("DELTA_SOURCE", "/work/p.delta"), ("DELTA_TARGET", "p.delta"),
        ("DELTA_OUTPUT", "/work/p.delta")] ∧
      ready.holds ⟨"/work/p.delta"⟩ = false := by
  have hrun : (copier.start? "text" "p.delta" ⟨.empty, []⟩).map
      (fun s => (s.1.environment, s.2.holds ⟨"/work/p.delta"⟩)) =
        some ([("DELTA_SOURCE", "/work/p.delta"), ("DELTA_TARGET", "p.delta"),
          ("DELTA_OUTPUT", "/work/p.delta")], false) := by
    decide +kernel
  obtain ⟨⟨call, ready⟩, hstart, hfound⟩ := Option.map_eq_some_iff.mp hrun
  exact ⟨call, ready, hstart, congrArg Prod.fst hfound, congrArg Prod.snd hfound⟩

end DeltaCommand
end CheckScript
