/-
What is done before the command of a delta starts.

The directories are made, the source is written, and an artifact of an earlier call is removed; each
step can be refused, and then what was done before stays (`Prepares`).  If no step is refused, the
source went into the work directory (`Written`) and no artifact is there (`Ready`).  `start?` is the
moment at which the command is started: all that comes before is done whatever the command does
(`build_cases`).
-/
import CheckScript.Delta
import CheckScript.Proofs.Decision
import CheckScript.Proofs.Files.Walk

namespace CheckScript
namespace DeltaCommand

open Files

variable {g : DeltaCommand} {source target n : String} {f : Files}

/-! ## The two files -/

/-- The name of the artifact for a target with this file name. -/
def artifactName (name : List Char) : List Char := Path.withEnding name ['d', 'e', 'l', 't', 'a']

theorem plain_of_fileName (h : (Path.mk target).fileName = some n) : Path.Plain n.toList := by
  obtain ⟨⟨directory, name⟩, hsplit, rfl⟩ := Option.map_eq_some_iff.mp h
  rw [String.toList_ofList]
  exact Path.plain_of_splitLast hsplit

theorem extension_of_fileName (h : (Path.mk target).fileName = some n) :
    (Path.mk target).extension = (Path.splitName n.toList).2.map String.ofList := by
  obtain ⟨⟨directory, name⟩, hsplit, rfl⟩ := Option.map_eq_some_iff.mp h
  rw [Path.extension, hsplit, String.toList_ofList]
  rfl

theorem sourcePath_eq (g : DeltaCommand) (hn : Path.Plain n.toList) :
    g.sourcePath n = g.workDirectory.below n.toList :=
  g.workDirectory.join_eq_below hn.slash

theorem outputPath_eq (g : DeltaCommand) (hn : Path.Plain n.toList) :
    g.outputPath n = g.workDirectory.below (artifactName n.toList) := by
  rw [outputPath, g.sourcePath_eq hn, Path.withExtension_below _ hn (by decide)]
  rfl

/-- The artifact gets a plain name, or the word for the directory above. -/
theorem plain_artifactName (hn : Path.Plain n.toList) (h : artifactName n.toList ≠ ['.', '.']) :
    Path.Plain (artifactName n.toList) :=
  (Path.plain_withEnding_iff hn (by decide) (List.cons_ne_nil _ _)).mpr fun hstem =>
    h (if_pos hstem)

/-! ## The steps -/

/-- The steps that were done, and the files they left. -/
inductive Prepares (g : DeltaCommand) (source n : String) (f : Files) :
    Except FileFault Unit → Files → Prop where
  | unmade (fault : FileFault) : Prepares g source n f (.error fault) f
  | unwritten {made : Files} (hmade : f.makeDirectories g.workDirectory = .ok made)
      (fault : FileFault) : Prepares g source n f (.error fault) made
  | unready {made written : Files} (hmade : f.makeDirectories g.workDirectory = .ok made)
      (hwritten : made.writeText (g.sourcePath n) source = .ok written) (fault : FileFault) :
      Prepares g source n f (.error fault) written
  | ready {made written ready : Files} (hmade : f.makeDirectories g.workDirectory = .ok made)
      (hwritten : made.writeText (g.sourcePath n) source = .ok written)
      (hready : removeOld written (g.outputPath n) = .ok ready) :
      Prepares g source n f (.ok ()) ready

theorem prepares (g : DeltaCommand) (source n : String) (f : Files) :
    Prepares g source n f (g.prepare source n f).1 (g.prepare source n f).2 := by
  unfold prepare
  split
  · exact .unmade _
  · rename_i made hmade
    split
    · exact .unwritten hmade _
    · rename_i written hwritten
      split
      · exact .unready hmade hwritten _
      · rename_i ready hready
        exact .ready hmade hwritten hready

variable {made written ready : Files} {d : List String}

theorem removeOld_tidy {p : Path} (h : removeOld written p = .ok ready) (hf : written.Tidy) :
    ready.Tidy := by
  unfold removeOld at h
  split at h
  · exact removeFile_tidy h hf
  · exact Except.ok.inj h ▸ hf

theorem Prepares.tidy {result : Except FileFault Unit} (h : Prepares g source n f result ready)
    (hf : f.Tidy) : ready.Tidy := by
  cases h with
  | unmade => exact hf
  | unwritten hmade => exact makeDirectories_tidy hmade hf
  | unready hmade hwritten => exact write_tidy hwritten (makeDirectories_tidy hmade hf)
  | ready hmade hwritten hready =>
    exact removeOld_tidy hready (write_tidy hwritten (makeDirectories_tidy hmade hf))

/-! ## What the steps come to -/

/-- The work directory is at `d`, and the name of the source fits there. -/
structure Inside (g : DeltaCommand) (n : String) (f : Files) (d : List String) : Prop where
  directory : f.directoryAt g.workDirectory = .ok d
  there : f.view d = some none
  fits : '\x00' ∉ n.toList ∧ n.utf8ByteSize ≤ maxNameSize

/-- The source was written to the work directory, and nothing else was changed. -/
structure Written (g : DeltaCommand) (source n : String) (made written : Files)
    (d : List String) : Prop extends Inside g n written d where
  view : ∀ q, written.view q = if q = d ++ [n] then some (some source.toUTF8) else made.view q

theorem written_of_writeText (hn : Path.Plain n.toList)
    (h : made.writeText (g.sourcePath n) source = .ok written) :
    ∃ d, Written g source n made written d := by
  obtain ⟨place, hplace, hold, rfl⟩ := write_eq_ok.mp h
  rw [g.sourcePath_eq hn] at hplace
  obtain ⟨hnul, hsize, d, hd, hthere, rfl⟩ := (locate_below_plain hn).mp hplace
  rw [String.ofList_toList] at hsize hold ⊢
  have hview := view_set_file hthere hold source.toUTF8
  have hstay := stay_of_view hold hview rfl
  exact ⟨d, ⟨directoryAt_of_stay hstay hd, hstay.2 d hthere, hnul, hsize⟩, hview⟩

/-- No artifact is there, and apart from the one that was removed the files are as they were. -/
structure Ready (g : DeltaCommand) (n : String) (written ready : Files) (d : List String) :
    Prop extends Inside g n ready d where
  plain : Path.Plain (artifactName n.toList)
  absent : ready.holds (g.outputPath n) = false
  view : ∀ q, q ≠ d ++ [String.ofList (artifactName n.toList)] → ready.view q = written.view q

/-- The directory above the work directory is no artifact that could be removed. -/
theorem artifactName_ne_dots (hn : Path.Plain n.toList) (hd : Inside g n written d)
    (h : removeOld written (g.outputPath n) = .ok ready) : artifactName n.toList ≠ ['.', '.'] := by
  intro hdots
  have hplace : written.locate (g.outputPath n) = .ok d.dropLast := by
    rw [g.outputPath_eq hn, hdots]
    exact locate_below_dots hd.directory hd.there
  have hthere := view_dropLast hd.there
  have hholds : written.holds (g.outputPath n) = true :=
    holds_iff.mpr ⟨_, hplace, hthere ▸ Option.some_ne_none _⟩
  rw [removeOld, if_pos hholds] at h
  obtain ⟨place, hplace', ⟨bytes, hfile⟩, -⟩ := removeFile_eq_ok.mp h
  obtain rfl := Except.ok.inj (hplace.symm.trans hplace')
  exact nomatch hthere.symm.trans hfile

theorem place_of_outputPath (hn : Path.Plain n.toList)
    (hplain : Path.Plain (artifactName n.toList)) {place : List String}
    (hd : f.directoryAt g.workDirectory = .ok d) (h : f.locate (g.outputPath n) = .ok place) :
    place = d ++ [String.ofList (artifactName n.toList)] := by
  rw [g.outputPath_eq hn] at h
  obtain ⟨-, -, d', hd', -, rfl⟩ := (locate_below_plain hplain).mp h
  rw [Except.ok.inj (hd.symm.trans hd')]

theorem ready_of_removeOld (hn : Path.Plain n.toList) (htidy : written.Tidy)
    (hd : Inside g n written d) (h : removeOld written (g.outputPath n) = .ok ready) :
    Ready g n written ready d := by
  have hplain := plain_artifactName hn (artifactName_ne_dots hn hd h)
  unfold removeOld at h
  split at h
  · obtain ⟨place, hplace, ⟨bytes, hfile⟩, rfl⟩ := removeFile_eq_ok.mp h
    obtain rfl := place_of_outputPath hn hplain hd.directory hplace
    have hold : written.view (d ++ [String.ofList (artifactName n.toList)]) ≠ some none := by
      rw [hfile]
      exact fun h => Option.some_ne_none _ (Option.some.inj h)
    have hview := view_set_none htidy (List.concat_ne_nil _ d) hold
    have hstay := stay_of_view hold hview rfl
    have hdirectory := directoryAt_of_stay hstay hd.directory
    have habsent : (written.set (d ++ [String.ofList (artifactName n.toList)]) none).holds
        (g.outputPath n) = false := by
      refine Bool.eq_false_iff.mpr fun hholds => ?_
      obtain ⟨place, hplace, hthere⟩ := holds_iff.mp hholds
      obtain rfl := place_of_outputPath hn hplain hdirectory hplace
      exact hthere ((hview _).trans (if_pos rfl))
    exact ⟨⟨hdirectory, hstay.2 d hd.there, hd.fits⟩, hplain, habsent,
      fun q hq => (hview q).trans (if_neg hq)⟩
  · rename_i hholds
    obtain rfl := Except.ok.inj h
    exact ⟨⟨hd.directory, hd.there, hd.fits⟩, hplain, Bool.eq_false_iff.mpr hholds,
      fun _ _ => rfl⟩

/-! ## The start of the command -/

/-- The call of the command for new source text and the files that it finds, if it comes to that. -/
def start? (g : DeltaCommand) (source target : String) (f : Files) : Option (ShellCall × Files) :=
  match (Path.mk target).fileName with
  | none => none
  | some n =>
    match g.prepare source n f with
    | (.error _, _) => none
    | (.ok _, ready) =>
      if holdsNul g.command || holdsNul target then none else some (g.call target n, ready)

theorem build_of_no_name (h : (Path.mk target).fileName = none) (shell : Shell)
    (g : DeltaCommand) (source : String) (f : Files) :
    g.start? source target f = none ∧
      g.build shell source target f = (.error (.delta target .noFileName), f) := by
  unfold start? build
  rw [h]
  exact ⟨rfl, rfl⟩

/-- A refused step is reported as such. -/
theorem build_of_refused (h : (Path.mk target).fileName = some n) {fault : FileFault}
    (hrefused : (g.prepare source n f).1 = .error fault) (shell : Shell) :
    g.build shell source target f = (.error (.system fault), (g.prepare source n f).2) := by
  unfold build
  rw [h]
  dsimp only
  cases hprepare : g.prepare source n f with
  | mk result after =>
    rw [hprepare] at hrefused
    obtain rfl := hrefused
    rfl

theorem outcome_eq_ok {r : ShellReply} {p : Path} (h : g.outcome target n r = .ok p) :
    p = g.outputPath n ∧ r.status = .success ∧ r.files.holds p = true := by
  unfold outcome at h
  split at h
  · cases h
  · rename_i hstatus
    split at h
    · rename_i hholds
      obtain rfl := Except.ok.inj h
      exact ⟨rfl, Decidable.not_not.mp hstatus, hholds⟩
    · cases h

/-- Where the command is not started it has no part in the outcome, which is a failure; from its
start on the outcome is its own. -/
theorem build_cases (h : (Path.mk target).fileName = some n) (g : DeltaCommand) (source : String)
    (f : Files) :
    g.start? source target f = none ∧
        (∃ failure, ∀ shell, g.build shell source target f =
          (.error failure, (g.prepare source n f).2)) ∨
      g.start? source target f = some (g.call target n, (g.prepare source n f).2) ∧
        (g.prepare source n f).1 = .ok () ∧
        ∀ shell, g.build shell source target f =
          (g.outcome target n (shell (g.call target n) (g.prepare source n f).2),
            (shell (g.call target n) (g.prepare source n f).2).files) := by
  unfold start? build
  rw [h]
  dsimp only
  cases hprepare : g.prepare source n f with
  | mk result after =>
    cases result with
    | error fault => exact .inl ⟨rfl, _, fun _ => rfl⟩
    | ok =>
      cases holdsNul g.command || holdsNul target with
      | true => exact .inl ⟨rfl, _, fun _ => rfl⟩
      | false => exact .inr ⟨rfl, rfl, fun _ => rfl⟩

/-! ## A command that copies the source -/

def copier : DeltaCommand := ⟨"cp \"$DELTA_SOURCE\" \"$DELTA_OUTPUT\"", ⟨"/work"⟩⟩

/-- The path in a variable of the call. -/
def variablePath (call : ShellCall) (name : String) : Path :=
  ⟨((call.environment.find? fun entry => entry.1 = name).map Prod.snd).getD ""⟩

/-- What the command line of `copier` does. -/
def copying : Shell := fun call f =>
  match f.read (variablePath call "DELTA_SOURCE") with
  | .error fault => ⟨.code 1, "", "cp: " ++ fault.reason, f⟩
  | .ok bytes =>
    match f.write (variablePath call "DELTA_OUTPUT") bytes with
    | .error fault => ⟨.code 1, "", "cp: " ++ fault.reason, f⟩
    | .ok copied => ⟨.success, "", "", copied⟩

end DeltaCommand
end CheckScript
