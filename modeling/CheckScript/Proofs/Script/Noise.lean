/-
Scripts do not hear noise.

Whatever a script does, it does by a strategy, and a strategy that waits for no line of the
noise finds the same answers with the noise and without it.  So noise changes nothing that
the script can see or that it leaves behind (`run_noise`), only what the debugger is
recorded to have written.
-/
import CheckScript.Proofs.Connection.Noise
import CheckScript.Proofs.Script.Strategy

namespace CheckScript
namespace Script

open Connection

variable {α : Type} {noise : String → Prop} {ended : Bool} {c d : Connection}

/-- Nothing that `waits` has asked for is in the noise, and none of the noise is a result. -/
structure Unheard (noise : String → Prop) (waits : List Wait) : Prop where
  results : ∀ line, noise line → tokenOfAnswer line = none
  wanted : ∀ w ∈ waits, ∀ line, noise line → Text.startsWith line w.wanted = false

theorem Unheard.tail {w : Wait} {waits : List Wait} (h : Unheard noise (w :: waits)) :
    Unheard noise waits where
  results := h.results
  wanted v hv := h.wanted v (List.mem_cons_of_mem w hv)

/-- Followed among noise, a strategy comes to the same end by the same answers. -/
theorem Strategy.play_noisier (σ : Strategy α) (h : Noisier noise ended c d)
    (hunheard : Unheard noise (σ.waits c)) :
    σ.waits d = σ.waits c ∧ (σ.play d).1 = (σ.play c).1 ∧
      (σ.play d).2.files = (σ.play c).2.files ∧ (σ.play d).2.scopes = (σ.play c).2.scopes ∧
      Noisier noise ended (σ.play c).2.connection (σ.play d).2.connection := by
  induction σ generalizing c d with
  | done outcome files scopes => exact ⟨rfl, rfl, rfl, rfl, h⟩
  | note text next ih => exact ih (h.note text) hunheard
  | send text next ih =>
    obtain ⟨hsame, hrest⟩ := h.send text
    rw [waits, play, waits, play, hsame]
    exact ih _ hrest hunheard
  | expect wanted timeout next ih =>
    -- the wait is answered alike, so both go on with the same branch of the tree
    obtain ⟨hsame, hrest⟩ := h.expect hunheard.results
      (hunheard.wanted _ List.mem_cons_self) timeout
    obtain ⟨hwaits, hplay⟩ := ih _ hrest hunheard.tail
    rw [waits, play, waits, play, hsame]
    exact ⟨by rw [hwaits], hplay⟩

/-- A script follows a strategy, and by whatever strategy it goes, it does not hear lines that
are no results and begin with nothing that it waits for.  With such lines at any places of
the output it ends alike, its waits are answered by the same records, its variables come to
the same values, it leaves the same files and the same tokens unanswered, and the same
entries stand in the transcript besides those of the output. -/
theorem run_noise (g : Environment) (fuel : Nat) (p : Program) (files : Files)
    (scopes : Scopes) :
    let body := execAll g fuel p.stmts
    (∃ σ, Follows body files ([] :: scopes) σ) ∧
    ∀ σ, Follows body files ([] :: scopes) σ →
      ∀ (lines noisy : List String) (ended : Bool) (platform : Platform) (format : RecordFormat)
        (transcript : Transcript),
      let c := start ((Debugger.fixed lines ended).on platform) format transcript
      let d := start ((Debugger.fixed noisy ended).on platform) format transcript
      Inserted (fun line => (∀ t, ¬ResultOf line t) ∧
        ∀ w ∈ σ.waits c, Text.startsWith line w.wanted = false) lines noisy →
      let quiet := run g fuel p ⟨c, files, scopes⟩
      let loud := run g fuel p ⟨d, files, scopes⟩
      loud.1 = quiet.1 ∧
      σ.waits d = σ.waits c ∧
      (body ⟨d, files, [] :: scopes⟩).2.scopes = (body ⟨c, files, [] :: scopes⟩).2.scopes ∧
      loud.2.scopes = quiet.2.scopes ∧
      loud.2.files = quiet.2.files ∧
      loud.2.connection.unanswered = quiet.2.connection.unanswered ∧
      loud.2.connection.transcript.own = quiet.2.connection.transcript.own := by
  intro body
  refine ⟨execAll_interactive g fuel p.stmts files ([] :: scopes), ?_⟩
  intro σ hσ lines noisy ended platform format transcript c d hinserted quiet loud
  have hunheard : Unheard (fun line => (∀ t, ¬ResultOf line t) ∧
      ∀ w ∈ σ.waits c, Text.startsWith line w.wanted = false) (σ.waits c) := by
    refine ⟨fun line hline => ?_, fun w hw line hline => hline.2 w hw⟩
    rw [Option.eq_none_iff_forall_ne_some]
    exact fun t ht => hline.1 t (tokenOfAnswer_eq_some.mp ht)
  obtain ⟨hwaits, houtcome, hfiles, hscopes, hafter⟩ :=
    σ.play_noisier (noisier_start hinserted ended platform format transcript) hunheard
  rw [← hσ c, ← hσ d] at houtcome hfiles hscopes hafter
  exact ⟨houtcome, hwaits, hscopes, congrArg (List.drop 1) hscopes, hfiles, hafter.unanswered,
    hafter.own⟩

end Script
end CheckScript
