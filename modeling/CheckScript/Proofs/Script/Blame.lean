/-
The lines that failures of a run name.

Faults and assertions name a line of the script; failures of the connection and of the delta
command name none (`send_refused`, `expect_outside`, `build_outside`).  Checkpoints take a
failure along without touching its line.  So a line that a run names is a line of the tree of
what it runs (`run_blames`).
-/
import CheckScript.Proofs.Script.Closed
import CheckScript.Proofs.Script.Triple

namespace CheckScript

namespace Failure

/-- The line of the script that a failure names, if it names one. -/
def scriptLine? : Failure → Option Nat
  | script line _ _ | assertion line _ _ => some line
  | _ => none

/-- The failure of a wait: its line did not come, or it could not be read. -/
def ofWait : Failure → Bool
  | timedOut .. | outputClosed .. | record _ => true
  | _ => false

theorem scriptLine?_of_wait {f : Failure} (h : f.ofWait = true) : f.scriptLine? = none := by
  cases f <;> first | rfl | exact nomatch h

theorem scriptLine?_inCheckpoint (name : String) (f : Failure) :
    (f.inCheckpoint name).scriptLine? = f.scriptLine? := by
  cases f <;> rfl

end Failure

/-! ## Failures from outside the script -/

namespace Connection

variable {c : Connection} {f : Failure}

theorem consume_outside {format : RecordFormat} {wanted : String} {missing : Failure}
    {unanswered : List Nat} {queue : List String}
    (h : (consume format wanted missing unanswered queue).result = .error f) :
    f = missing ∨ ∃ fault, f = .record fault := by
  induction queue generalizing unanswered with
  | nil => exact .inl (Except.error.inj h).symm
  | cons line queue ih =>
    rw [consume] at h
    split at h
    · unfold matched at h
      split at h
      · exact .inr ⟨_, (Except.error.inj h).symm⟩
      · exact nomatch h
    · exact ih h

theorem expect_outside {wanted : String} {timeout : Duration}
    (h : (c.expect wanted timeout).1 = some (.error f)) : f.ofWait = true := by
  unfold expect at h
  split at h
  · rcases consume_outside (Option.some.inj h) with rfl | ⟨fault, rfl⟩
    · unfold missing
      split <;> rfl
    · rfl
  · exact nomatch h

/-- A text is refused because the input has been closed, which changes nothing, or because the
system refuses to write it. -/
theorem send_refused {text : String} {d : Connection} (h : c.send text = (.error f, d)) :
    c.closed = true ∧ f = .inputClosed ∧ d = c ∨
      c.closed = false ∧
        ∃ fault, f = .system fault ∧ c.debugger.platform.refusal c.events text = some fault := by
  unfold send at h
  split at h
  · rename_i hclosed
    obtain ⟨hf, rfl⟩ := Prod.mk.inj h
    exact .inl ⟨hclosed, (Except.error.inj hf).symm, rfl⟩
  · rename_i hopen
    refine .inr ⟨Bool.eq_false_iff.mpr hopen, ?_⟩
    obtain ⟨hf, -⟩ := Prod.mk.inj h
    unfold write at hf
    split at hf
    · exact nomatch hf
    · exact ⟨_, (Except.error.inj hf).symm, ‹_›⟩

end Connection

namespace DeltaCommand

variable {d : DeltaCommand} {target : String} {f : Failure}

theorem outcome_outside {fileName : String} {r : ShellReply}
    (h : d.outcome target fileName r = .error f) : ∃ fault, f = .delta target fault := by
  unfold outcome at h
  split at h
  · exact ⟨_, (Except.error.inj h).symm⟩
  · split at h
    · exact nomatch h
    · exact ⟨_, (Except.error.inj h).symm⟩

theorem build_outside {shell : Shell} {source : String} {files : Files}
    (h : (d.build shell source target files).1 = .error f) :
    f.ofWait = false ∧ f.scriptLine? = none := by
  unfold build at h
  split at h
  · obtain rfl := Except.error.inj h
    exact ⟨rfl, rfl⟩
  · split at h
    · obtain rfl := Except.error.inj h
      exact ⟨rfl, rfl⟩
    · split at h
      · obtain rfl := Except.error.inj h
        exact ⟨rfl, rfl⟩
      · obtain ⟨fault, rfl⟩ := outcome_outside h
        exact ⟨rfl, rfl⟩

end DeltaCommand

namespace Script

variable {α : Type}

/-- What sending comes to is what it comes to for the connection. -/
theorem send_failed {text : String} {s t : Session} {f : Failure}
    (h : Run.send text s = (.failed f, t)) :
    s.connection.send text = (.error f, t.connection) ∧ t = { s with connection := t.connection } := by
  unfold Run.send at h
  obtain ⟨hf, rfl⟩ := Prod.mk.inj h
  refine ⟨Prod.ext ?_ rfl, rfl⟩
  generalize (s.connection.send text).1 = result at hf ⊢
  cases result with
  | ok => exact nomatch hf
  | error e => exact congrArg _ (Outcome.failed.inj hf)

theorem send_blames_none {text : String} {s t : Session} {f : Failure}
    (h : Run.send text s = (.failed f, t)) : f.scriptLine? = none := by
  rcases Connection.send_refused (send_failed h).1 with ⟨-, rfl, -⟩ | ⟨-, _, rfl, -⟩ <;> rfl

theorem expect_waited {line : Nat} {wanted : String} {timeout : Duration} {s t : Session}
    {f : Failure} (h : Run.expect line wanted timeout s = (.failed f, t)) : f.ofWait = true := by
  unfold Run.expect at h
  split at h
  · exact nomatch (Prod.mk.inj h).1
  · exact nomatch (Prod.mk.inj h).1
  · rename_i hexpect
    obtain rfl := Outcome.failed.inj (Prod.mk.inj h).1
    exact Connection.expect_outside (congrArg Prod.fst hexpect)

theorem expect_blames_none {line : Nat} {wanted : String} {timeout : Duration} {s t : Session}
    {f : Failure} (h : Run.expect line wanted timeout s = (.failed f, t)) : f.scriptLine? = none :=
  Failure.scriptLine?_of_wait (expect_waited h)

theorem buildDelta_outside {g : Environment} {source target : String} {s t : Session}
    {f : Failure} (h : Run.buildDelta g source target s = (.failed f, t)) :
    f.ofWait = false ∧ f.scriptLine? = none := by
  unfold Run.buildDelta at h
  split at h
  · obtain rfl := Outcome.failed.inj (Prod.mk.inj h).1
    exact ⟨rfl, rfl⟩
  · rename_i d _
    obtain ⟨hf, -⟩ := Prod.mk.inj h
    cases hbuild : (d.build g.shell source target s.files).1 with
    | ok p =>
      rw [hbuild] at hf
      exact nomatch hf
    | error e =>
      rw [hbuild] at hf
      obtain rfl := Outcome.failed.inj hf
      exact DeltaCommand.build_outside hbuild

theorem buildDelta_blames_none {g : Environment} {source target : String} {s t : Session}
    {f : Failure} (h : Run.buildDelta g source target s = (.failed f, t)) :
    f.scriptLine? = none := (buildDelta_outside h).2

/-! ## Failures of a run -/

/-- Failures of a step name lines with `P` only. -/
def Blames (P : Nat → Prop) (m : Run α) : Prop :=
  Run.Triple (fun _ => True) m (fun _ _ => True) fun f _ =>
    ∀ line, f.scriptLine? = some line → P line

theorem Blames.outside {P : Nat → Prop} {m : Run α}
    (h : ∀ {s t : Session} {f : Failure}, m s = (.failed f, t) → f.scriptLine? = none) :
    Blames P m := by
  intro s _
  match hm : m s with
  | (.done _, _) | (.unfinished _, _) => trivial
  | (.failed f, t) =>
    intro line hline
    exact nomatch (h hm).symm.trans hline

theorem blames_closed (P : Nat → Prop) : Run.Closed P fun {_} m => Blames P m where
  pure _ := .pure fun _ _ => trivial
  bind hm hk := .bind hm hk
  fault _ hline := .fail fun _ _ _ he => Option.some.inj he ▸ hline
  assertion _ hline := .fail fun _ _ _ he => Option.some.inj he ▸ hline
  cutOff := fun _ _ => trivial
  scopes := fun _ _ => trivial
  setScopes _ := fun _ _ => trivial
  note _ := fun _ _ => trivial
  send _ := .outside send_blames_none
  expect _ _ _ := .outside expect_blames_none
  buildDelta _ _ _ := .outside buildDelta_blames_none
  inScope _ _ hbody := .inScope (hbody.weaken (fun _ _ => trivial) (fun _ _ h => h) fun _ _ h => h)
  checkpoint name _ hbody := .checkpoint (fun _ _ => trivial) (hbody.weaken (fun _ h => h)
    (fun _ _ h => h) fun f _ h line hline => h line (f.scriptLine?_inCheckpoint name ▸ hline))

/-- A line that a run names is a line of the tree. -/
theorem run_blames {g : Environment} {fuel : Nat} {p : Program} {s t : Session} {f : Failure}
    {line : Nat} (hrun : run g fuel p s = (.failed f, t)) (hline : f.scriptLine? = some line) :
    ∃ q ∈ stmtPlaces p.stmts, q.line = line := by
  have hclosed := blames_closed fun l => ∃ q ∈ stmtPlaces p.stmts, q.line = l
  have hbody := hclosed.execAll g fuel p.stmts fun q hq => ⟨q, hq, rfl⟩
  exact (hclosed.inScope [] hbody).failed trivial hrun line hline

end Script
end CheckScript
