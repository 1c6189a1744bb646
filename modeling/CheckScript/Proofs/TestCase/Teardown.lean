/-
From the source of a test to the end of its debugger.

A script can neither close its connection nor end the input of its debugger, and it takes nothing
back from the transcript (`Script.run_continues`).  So a debugger that was started is shut down by
the test alone, once, behind everything that the script has done (`run_law`).
-/
import CheckScript.Proofs.Connection.Operation
import CheckScript.Proofs.Script.Strategy
import CheckScript.TestCase.Execution

namespace CheckScript

/-! ## What scripts leave of a connection -/

namespace Connection

/-- More has happened on a connection.  Nothing has left the transcript, and nobody has closed
the connection or ended the input of the debugger. -/
structure Continues (c d : Connection) : Prop where
  closed : d.closed = c.closed
  events : ∃ more, d.events = more ++ c.events ∧ .inputEnd ∉ more
  transcript : c.transcript.entries.toList <+: d.transcript.entries.toList

namespace Continues

variable {b c d : Connection}

theorem refl (c : Connection) : c.Continues c :=
  ⟨rfl, ⟨[], rfl, List.not_mem_nil⟩, List.prefix_refl _⟩

theorem trans (h : b.Continues c) (h' : c.Continues d) : b.Continues d := by
  obtain ⟨early, hearly, hinput⟩ := h.events
  obtain ⟨late, hlate, hinput'⟩ := h'.events
  refine ⟨h'.closed.trans h.closed, ⟨late ++ early, ?_, ?_⟩, h.transcript.trans h'.transcript⟩
  · rw [hlate, hearly, List.append_assoc]
  · exact fun hmem => (List.mem_append.mp hmem).elim hinput' hinput

theorem log (c : Connection) (e : Entry) : c.Continues (c.log e) := by
  refine ⟨rfl, ⟨[], rfl, List.not_mem_nil⟩, ?_⟩
  show _ <+: (c.transcript.push e).entries.toList
  rw [Transcript.toList_push]
  exact List.prefix_append _ _

theorem react {e : Event} (he : e ≠ .inputEnd) (c : Connection) : c.Continues (c.react e) := by
  obtain ⟨arriving, ended, hreact⟩ := c.react_eq e
  rw [hreact]
  exact ⟨rfl, ⟨[e], rfl, fun hmem => he (List.mem_singleton.mp hmem).symm⟩, List.prefix_refl _⟩

theorem launch (c : Connection) (token : Option Nat) : c.Continues (c.launch token) := by
  unfold Connection.launch
  split
  · exact refl c
  · split
    · exact log c _
    · exact ⟨rfl, ⟨[], rfl, List.not_mem_nil⟩, List.prefix_refl _⟩

theorem collect (c : Connection) : c.Continues c.collect := by
  refine ⟨rfl, ⟨[], rfl, List.not_mem_nil⟩, ?_⟩
  unfold Connection.collect
  simp only
  generalize c.arriving = lines
  generalize c.transcript = t
  induction lines generalizing t with
  | nil => exact List.prefix_refl _
  | cons line lines ih =>
    have hfirst : t.entries.toList <+: (t.push (.received line)).entries.toList := by
      rw [Transcript.toList_push]
      exact List.prefix_append _ _
    exact hfirst.trans (ih _)

theorem send (c : Connection) (text : String) : c.Continues (c.send text).2 := by
  unfold Connection.send
  split
  · exact refl c
  · have hwritten : (c.write text).2 ≠ .inputEnd := by
      rcases c.write_cases text with ⟨-, h⟩ | ⟨_, -, h⟩ <;> rw [h] <;> exact fun h => by cases h
    exact ((launch c _).trans (log _ _)).trans (react hwritten _)

theorem expect (c : Connection) (wanted : String) (timeout : Duration) :
    c.Continues (c.expect wanted timeout).2 := by
  rcases c.expect_cases wanted timeout with h | h <;> rw [h]
  · have hwait : Event.wait ≠ .inputEnd := fun h => by cases h
    obtain ⟨hclosed, hevents, htranscript⟩ := (react hwait c).trans (collect _)
    exact ⟨hclosed, hevents, htranscript⟩
  · exact refl c

end Continues

/-- Closing ends the input of the debugger behind all that has happened. -/
theorem Continues.close {c d : Connection} (h : c.Continues d) (hopen : c.closed = false) :
    d.close.closed = true ∧ (∃ more, d.close.events = .inputEnd :: (more ++ c.events) ∧
      .inputEnd ∉ more) ∧ c.transcript.entries.toList <+: d.close.transcript.entries.toList := by
  obtain ⟨more, hmore, hinput⟩ := h.events
  obtain ⟨arriving, ended, hreact⟩ := d.react_eq .inputEnd
  rw [close_of_open (h.closed.trans hopen)]
  refine ⟨rfl, ⟨more, ?_, hinput⟩, ?_⟩
  · show (d.react .inputEnd).events = _
    rw [hreact, ← hmore]
  · have hcollect := (Continues.collect (d.react .inputEnd)).transcript
    rw [hreact] at hcollect ⊢
    exact h.transcript.trans hcollect

end Connection

namespace Script

theorem Strategy.play_continues {α : Type} (σ : Strategy α) (c : Connection) :
    c.Continues (σ.play c).2.connection := by
  induction σ generalizing c with
  | done outcome files scopes => exact .refl c
  | note text next ih => exact (Connection.Continues.log c _).trans (ih _)
  | send text next ih => exact (Connection.Continues.send c text).trans (ih _ _)
  | expect wanted timeout next ih =>
    exact (Connection.Continues.expect c wanted timeout).trans (ih _ _)

theorem run_continues (g : Environment) (fuel : Nat) (p : Program) (s : Session) :
    s.connection.Continues (run g fuel p s).2.connection := by
  obtain ⟨c, files, scopes⟩ := s
  obtain ⟨σ, hσ⟩ := Interactive.inScope [] (execAll_interactive g fuel p.stmts) files scopes
  rw [run, hσ c]
  exact σ.play_continues c

end Script

/-! ## Before the start -/

namespace TestCase

/-- What has to go well before a debugger is started. -/
inductive Stage where
  | reading
  | tags
  | scan
  | compile
deriving DecidableEq, Repr

/-- The stages in their order. -/
def stages : List Stage := [.reading, .tags, .scan, .compile]

def failureOf {α : Type} : Except Failure α → Option Failure
  | .ok _ => none
  | .error failure => some failure

/-- How a stage fails.  Nothing fails in a stage for want of what it works on. -/
def failureAt (c : TestCase) (f : Files) (stage : Stage) : Option Failure :=
  match TestSource.load f c.source, stage with
  | source, .reading => failureOf source
  | .ok source, .tags => failureOf source.tags
  | .ok source, .scan => failureOf source.comments
  | .ok source, .compile =>
    match source.script with
    | .ok script => failureOf ((Script.compile script).mapError .rejected)
    | .error _ => none
  | .error _, _ => none

/-- The first stage that fails, and how. -/
def firstFailure (c : TestCase) (f : Files) : Option (Stage × Failure) :=
  stages.findSome? fun stage => (c.failureAt f stage).map (stage, ·)

/-- A script between its banners is what stands in the transcript before the start. -/
theorem announced_lines (script : String) :
    (announced script).lines = [openingBanner, script, closingBanner] := rfl

/-- Either the source gives no script, or what is left to fail is the script's compilation. -/
theorem firstFailure_cases (c : TestCase) (f : Files) :
    (∃ stage failure, stage ≠ .compile ∧ c.firstFailure f = some (stage, failure) ∧
      c.read f = .error failure) ∨
    ∃ source tags script, TestSource.load f c.source = .ok source ∧ source.tags = .ok tags ∧
      source.script = .ok script ∧ c.read f = .ok (tags, script) ∧
      c.firstFailure f =
        match Script.compile script with
        | .ok _ => none
        | .error diagnostics => some (.compile, .rejected diagnostics) := by
  cases hload : TestSource.load f c.source with
  | error failure =>
    refine .inl ⟨.reading, failure, by decide, ?_, ?_⟩
    · simp [firstFailure, stages, failureAt, hload, failureOf]
    · rw [read, hload]
  | ok source =>
    cases htags : source.tags with
    | error failure =>
      refine .inl ⟨.tags, failure, by decide, ?_, ?_⟩
      · simp [firstFailure, stages, failureAt, hload, htags, failureOf]
      · simp only [read, hload, htags]
    | ok tags =>
      cases hcomments : source.comments with
      | error failure =>
        have hscript : source.script = .error failure := by
          rw [TestSource.script, hcomments]
          rfl
        refine .inl ⟨.scan, failure, by decide, ?_, ?_⟩
        · simp [firstFailure, stages, failureAt, hload, htags, hcomments, failureOf]
        · simp only [read, hload, htags, hscript]
      | ok comments =>
        have hscript : source.script = .ok (Source.script comments) := by
          rw [TestSource.script, hcomments]
          rfl
        refine .inr ⟨source, tags, _, rfl, htags, hscript, ?_, ?_⟩
        · simp only [read, hload, htags, hscript]
        · simp only [firstFailure, stages, failureAt, hload, htags, hcomments, hscript, failureOf,
            List.findSome?, Option.map_none]
          cases Script.compile (Source.script comments) <;> rfl

/-- A debugger that was started is shut down once, behind everything else. -/
theorem drive_shut (c : TestCase) (h : Host) (o : TestSetup) (fuel : Nat) (tags : LineTags)
    (program : Script.Program) (debugger : Debugger) (before : Transcript) (f : Files) :
    let globals : Script.Environment :=
      { tags, source := c.source, binary := c.binary, timeout := o.expectTimeout, delta := o.delta
        shell := h.shell }
    let r := Script.run globals fuel program ⟨.start debugger .mi before, f, []⟩
    ∃ shut events, c.drive h o fuel tags program debugger before f =
        ⟨r.1, shut.transcript, some shut, r.2.files⟩ ∧
      shut.closed = true ∧ shut.events = .inputEnd :: events ∧ .inputEnd ∉ events ∧
      before.entries.toList <+: shut.transcript.entries.toList := by
  intro globals r
  have hrun := Script.run_continues globals fuel program ⟨.start debugger .mi before, f, []⟩
  obtain ⟨hclosed, ⟨events, hevents, hinput⟩, htranscript⟩ := hrun.close rfl
  refine ⟨r.2.connection.close, events, rfl, hclosed, ?_, hinput, htranscript⟩
  rw [hevents]
  exact congrArg _ (List.append_nil events)

/-- A test whose source cannot be read, has a tag twice, cannot be scanned or has a script that
does not compile ends with the first of these failures, whatever programs there are to start.
Nothing is started, and the script is in the transcript only if it was found.

Otherwise the script stands between its banners when the debugger is started.  If it can be
started, it runs the script, then its input is ended, once and behind all that the script has
done, and the test comes to what the script has come to. -/
theorem run_law (c : TestCase) (f : Files) :
    match c.firstFailure f with
    | some (.compile, failure) =>
      ∃ source script before, TestSource.load f c.source = .ok source ∧
        source.script = .ok script ∧
        Transcript.lines before = [openingBanner, script, closingBanner] ∧
        ∀ h o fuel, c.run h o fuel f = ⟨.failed failure, before, none, f⟩
    | some (_, failure) =>
      ∀ h o fuel, c.run h o fuel f = ⟨.failed failure, .empty, none, f⟩
    | none =>
      ∃ source tags script program before, TestSource.load f c.source = .ok source ∧
        source.tags = .ok tags ∧ source.script = .ok script ∧
        Script.compile script = .ok program ∧
        Transcript.lines before = [openingBanner, script, closingBanner] ∧
        ∀ (h : Host) (o : TestSetup) (fuel : Nat),
          match h.launch o.target f with
          | .error failure => c.run h o fuel f = ⟨.failed failure, before, none, f⟩
          | .ok (debugger, started) =>
            let globals : Script.Environment :=
              { tags, source := c.source, binary := c.binary, timeout := o.expectTimeout
                delta := o.delta, shell := h.shell }
            let r := Script.run globals fuel program ⟨.start debugger .mi before, started, []⟩
            ∃ shut events, c.run h o fuel f = ⟨r.1, shut.transcript, some shut, r.2.files⟩ ∧
              shut.closed = true ∧ shut.events = .inputEnd :: events ∧ .inputEnd ∉ events ∧
              before.entries.toList <+: shut.transcript.entries.toList := by
  rcases c.firstFailure_cases f with ⟨stage, failure, hstage, hfirst, hread⟩ |
    ⟨source, tags, script, hload, htags, hscript, hread, hfirst⟩
  · have hrun : ∀ h o fuel, c.run h o fuel f = ⟨.failed failure, .empty, none, f⟩ := by
      intro h o fuel
      rw [run, hread]
      rfl
    rw [hfirst]
    cases stage with
    | reading | tags | scan => exact hrun
    | compile => exact absurd rfl hstage
  · cases hcompile : Script.compile script with
    | error diagnostics =>
      rw [hfirst, hcompile]
      refine ⟨source, script, announced script, hload, hscript, announced_lines script, ?_⟩
      intro h o fuel
      rw [run, hread]
      simp only [hcompile]
      rfl
    | ok program =>
      rw [hfirst, hcompile]
      refine ⟨source, tags, script, program, announced script, hload, htags, hscript, hcompile,
        announced_lines script, ?_⟩
      intro h o fuel
      rw [run, hread]
      simp only [hcompile]
      cases h.launch o.target f with
      | error failure => rfl
      | ok launched => exact c.drive_shut h o fuel tags program launched.1 _ launched.2

end TestCase
end CheckScript
