/-
The mock debugger's arithmetic on words of 32 bits.

One is added in two places: to the number of breakpoints, when one more is put in, and to the line
where the program stands, when it goes on.  Numbers cannot outrun the lines that were read
(`inserted_le`).  The other sum stands for the rule that a program goes on to the least line with a
breakpoint behind its own.  `Stands` tells by that rule alone where lines lead a program; the mock
leads it there, but for one place that no word stands behind, the last line, where it breaks down.
So the mock keeps the rule exactly as long as its sums are words (`additions_fit_iff`).
-/
import CheckScript.Proofs.Debugger.Stations

namespace CheckScript
namespace Mock

open Breakpoint (Before)

/-! ## Where a program stands -/

/-- Whether a line of the program is ahead of the place where it stands.  All lines are if it does
not run. -/
def Ahead (here : Option Nat) (n : Nat) : Prop := ∀ m ∈ here, m < n

/-- Where a program comes to from a place: to the least line ahead that has a breakpoint, or to its
end. -/
inductive Next (lines : List String) (here : Option Nat) : Option Nat → Prop where
  | stop {n : Nat} (hputs : ∃ l ∈ lines, Puts l n) (hahead : Ahead here n)
      (hleast : ∀ l ∈ lines, ∀ m, Puts l m → Ahead here m → n ≤ m) : Next lines here (some n)
  | ended (h : ∀ l ∈ lines, ∀ m, Puts l m → ¬Ahead here m) : Next lines here none

/-- Where one line leads a program, behind lines that put breakpoints in. -/
inductive Moves (before : List String) (line : String) : Option Nat → Option Nat → Prop where
  | run {here there : Option Nat} (h : Orders line "exec-run") (hnext : Next before none there) :
      Moves before line here there
  | onward {n : Nat} {there : Option Nat} (h : Orders line "exec-continue")
      (hnext : Next before (some n) there) : Moves before line (some n) there
  | still {here : Option Nat} (hrun : ¬Orders line "exec-run")
      (honward : Orders line "exec-continue" → here = none) : Moves before line here here

/-- Where lines that are read lead a program. -/
inductive Stands : List String → Option Nat → Prop where
  | start : Stands [] none
  | read {before : List String} {line : String} {here there : Option Nat}
      (h : Stands before here) (hmoves : Moves before line here there) :
      Stands (before ++ [line]) there

variable {lines before : List String} {line name : String} {n : Nat} {here : Option Nat}

theorem zero_le_iff_ahead : 0 ≤ n ↔ Ahead none n := by
  simp [Ahead]

theorem succ_le_iff_ahead {m : Nat} : n + 1 ≤ m ↔ Ahead (some n) m :=
  ⟨fun h _ hn => Option.some.inj hn ▸ h, fun h => h n rfl⟩

theorem Next.unique {p q : Option Nat} (hp : Next lines here p) (hq : Next lines here q) :
    p = q := by
  cases hp with
  | stop hputs hahead hleast =>
    obtain ⟨l, hl, hn⟩ := hputs
    cases hq with
    | stop hputs' hahead' hleast' =>
      obtain ⟨l', hl', hn'⟩ := hputs'
      exact congrArg some
        (Nat.le_antisymm (hleast l' hl' _ hn' hahead') (hleast' l hl _ hn hahead))
    | ended h => exact absurd hahead (h l hl _ hn)
  | ended h =>
    cases hq with
    | stop hputs hahead =>
      obtain ⟨l, hl, hn⟩ := hputs
      exact absurd hahead (h l hl _ hn)
    | ended => rfl

theorem Moves.unique {p q : Option Nat} (hp : Moves before line here p)
    (hq : Moves before line here q) : p = q := by
  have hdistinct : "exec-run" ≠ "exec-continue" := by decide
  cases hp with
  | run hrun hnext =>
    cases hq with
    | run _ hnext' => exact hnext.unique hnext'
    | onward honward => exact absurd (hrun.name_unique honward) hdistinct
    | still hno => exact absurd hrun hno
  | onward honward hnext =>
    cases hq with
    | run hrun => exact absurd (hrun.name_unique honward) hdistinct
    | onward _ hnext' => exact hnext.unique hnext'
    | still _ hno => exact absurd (hno honward) (Option.some_ne_none _)
  | still hrun honward =>
    cases hq with
    | run h => exact absurd h hrun
    | onward h => exact absurd (honward h) (Option.some_ne_none _)
    | still => rfl

theorem stands_concat {there : Option Nat} (h : Stands (before ++ [line]) there) :
    ∃ here, Stands before here ∧ Moves before line here there := by
  generalize hlines : before ++ [line] = lines at h
  cases h with
  | start => exact absurd hlines (List.concat_ne_nil _ _)
  | read h hmoves =>
    obtain ⟨rfl, hline⟩ := List.append_inj' hlines rfl
    obtain rfl := List.singleton_inj.mp hline
    exact ⟨_, h, hmoves⟩

theorem Stands.unique {p q : Option Nat} (hp : Stands lines p) (hq : Stands lines q) : p = q := by
  induction hp generalizing q with
  | start =>
    generalize hlines : ([] : List String) = lines at hq
    cases hq with
    | start => rfl
    | read => exact absurd hlines.symm (List.concat_ne_nil _ _)
  | read _ hmoves ih =>
    obtain ⟨here, hhere, hmoves'⟩ := stands_concat hq
    obtain rfl := ih hhere
    exact hmoves.unique hmoves'

/-! ## Lines as words -/

/-- The greatest word: no word stands behind it. -/
def lastLine : Nat := 4294967295

theorem le_lastLine_iff : n ≤ lastLine ↔ n < Nat.pow 2 32 := Nat.lt_succ_iff.symm

theorem Puts.unique {m : Nat} (h : Puts line n) (h' : Puts line m) : n = m := by
  obtain ⟨-, _, _, _, hcommands, hlocates⟩ := h
  obtain ⟨-, _, _, _, hcommands', hlocates'⟩ := h'
  obtain ⟨-, -, rfl⟩ := hcommands.unique hcommands'
  have hsame := (location?_eq_some.mpr hlocates).symm.trans (location?_eq_some.mpr hlocates')
  exact (Prod.mk.inj (Option.some.inj hsame)).2

theorem Puts.le_lastLine (h : Puts line n) : n ≤ lastLine := by
  obtain ⟨-, _, _, _, -, hlocates⟩ := h
  cases hlocates with
  | file _ hword =>
    have hfits := (Option.filter_eq_some_iff.mp hword).2
    exact le_lastLine_iff.mpr (of_decide_eq_true hfits)

/-! ## What a line changes -/

/-- The ways in which a line that does not end the mock changes its state. -/
inductive Turns (line : String) (s : State) : State → Prop where
  | put {n : Nat} {file : String} (h : Puts line n) :
      Turns line s { s with inserted := s.inserted + 1,
                            breakpoints := place ⟨n, s.inserted + 1⟩ s.breakpoints, file }
  | run {s' : State} {stop : Record} (h : Orders line "exec-run")
      (hstops : Stops 0 { s with stoppedAt := none } s' stop) : Turns line s s'
  | onward {n : Nat} {s' : State} {stop : Record} (h : Orders line "exec-continue")
      (hstopped : s.stoppedAt = some n) (hstops : Stops (n + 1) s s' stop) :
      Turns line s s'
  | still (hputs : ∀ n, ¬Puts line n) (hrun : ¬Orders line "exec-run")
      (honward : Orders line "exec-continue" → s.stoppedAt = none) : Turns line s s

variable {s s' : State} {rs : List Record}

/-- A line with none of these three commands leaves the state as it is. -/
theorem turns_still (h : ∀ known ∈ ["break-insert", "exec-run", "exec-continue"],
    ∀ digits args, ¬Commands line digits known args) : Turns line s s := by
  refine .still ?_ ?_ ?_
  · rintro _ ⟨-, _, _, _, hputs, -⟩
    exact h _ (by decide) _ _ hputs
  · rintro ⟨-, _, _, hrun⟩
    exact h _ (by decide) _ _ hrun
  · rintro ⟨-, _, _, honward⟩
    exact absurd honward (h _ (by decide) _ _)

theorem turns_of_name {digits args : List Char} (hcommands : Commands line digits name args)
    (hname : name ∉ ["break-insert", "exec-run", "exec-continue"]) : Turns line s s :=
  turns_still fun _ hknown _ _ h => hname ((hcommands.unique h).2.1 ▸ hknown)

theorem Carries.turns {digits args : List Char} (hnewline : '\n' ∉ line.toList)
    (hcommands : Commands line digits name args) (hexits : ¬Exits line)
    (h : Carries digits args s name s' rs) : Turns line s s' := by
  have horders : Orders line name := ⟨hnewline, digits, args, hcommands⟩
  cases h with
  | misplaced h =>
    refine .still ?_ (fun hrun => ?_) (fun honward => ?_)
    · rintro n ⟨-, _, _, _, hputs, hlocates⟩
      obtain ⟨-, -, rfl⟩ := hcommands.unique hputs
      rw [location?_eq_some.mpr hlocates] at h
      cases h
    · exact absurd (horders.name_unique hrun) (by decide)
    · exact absurd (horders.name_unique honward) (by decide)
  | inserted h => exact .put ⟨hnewline, _, _, _, hcommands, location?_eq_some.mp h⟩
  | ran h => exact .run horders h
  | notRunning h =>
    exact .still (fun _ => horders.not_puts (by decide))
      (fun hrun => absurd (horders.name_unique hrun) (by decide)) (fun _ => h)
  | resumed hstopped _ hstops => exact .onward horders hstopped hstops
  | exited => exact absurd ⟨_, _, hcommands⟩ hexits
  | listed | noStack | framed | echoed => exact turns_of_name hcommands (by decide)
  | unknown h =>
    have hknown : ["break-insert", "exec-run", "exec-continue"] ⊆ commandNames := by decide
    exact turns_of_name hcommands fun hname => h (hknown hname)

theorem Hears.turns (h : Hears line s s' rs) (hnewline : '\n' ∉ line.toList)
    (hreading : s.status = .reading) (hfits : Fits line s) (hexits : ¬Exits line) :
    Turns line s s' := by
  by_cases hcommands : ∃ digits name args, Commands line digits name args
  · obtain ⟨digits, name, args, hcommands⟩ := hcommands
    obtain ⟨_, hcarries, -⟩ := h.carries hreading hfits hcommands
    exact hcarries.turns hnewline hcommands hexits
  · have hsame : s' = s := by
      cases h with
      | unread | blank => rfl
      | broken _ hline => exact absurd ⟨_, _, _, hline⟩ hcommands
      | answered _ _ h =>
        cases h with
        | ping | stray => rfl
        | command hparts hcalls => exact absurd ⟨_, _, _, _, hparts, hcalls⟩ hcommands
    rw [hsame]
    exact turns_still fun _ _ _ _ h => hcommands ⟨_, _, _, h⟩

/-! ## The breakpoints of a session -/

/-- A line puts in one breakpoint at most. -/
theorem Hears.inserted_le (h : Hears line s s' rs) : s'.inserted ≤ s.inserted + 1 := by
  cases h with
  | unread | blank | broken => exact Nat.le_succ _
  | answered _ _ h =>
    cases h with
    | ping | stray => exact Nat.le_succ _
    | command _ _ h =>
      cases h with
      | inserted => exact Nat.le_refl _
      | ran h | resumed _ _ h => cases h <;> exact Nat.le_succ _
      | misplaced | listed | notRunning | noStack | framed | echoed | exited | unknown =>
        exact Nat.le_succ _

theorem inserted_le (hlines : ∀ line ∈ lines, '\n' ∉ line.toList) :
    (after lines).inserted ≤ lines.length := by
  induction lines using List.reverseRecOn with
  | nil => exact Nat.le_refl _
  | append_singleton lines line ih =>
    have hmem : line ∈ lines ++ [line] := List.mem_append_right _ List.mem_cons_self
    have hle := ih fun l hl => hlines l (List.mem_append_left _ hl)
    obtain ⟨rs, hhears, -⟩ := after_hears (hlines line hmem) lines
    rw [List.length_append, List.length_singleton]
    exact hhears.inserted_le.trans (Nat.succ_le_succ hle)

/-- What a mock that reads on has of the lines before. -/
structure Marks (lines : List String) (s : State) : Prop where
  sorted : s.breakpoints.Pairwise Before
  numbered : ∀ b ∈ s.breakpoints, b.number ≤ s.inserted
  marked : ∀ n, (∃ b ∈ s.breakpoints, b.line = n) ↔ ∃ l ∈ lines, Puts l n
  stopped : ∀ n ∈ s.stoppedAt, ∃ l ∈ lines, Puts l n

theorem Marks.start : Marks [] .start where
  sorted := .nil
  numbered b := by simp [State.start]
  marked n := by simp [State.start]
  stopped n := by simp [State.start]

theorem Marks.stoppedAt (h : Marks lines s) (hhere : ∀ n ∈ here, ∃ l ∈ lines, Puts l n) :
    Marks lines { s with stoppedAt := here } :=
  ⟨h.sorted, h.numbered, h.marked, hhere⟩

theorem Marks.restarted (h : Marks lines s) : Marks lines { s with stoppedAt := none } :=
  h.stoppedAt fun _ hn => absurd hn (Option.not_mem_none _)

/-- A stop is the next breakpoint ahead, for a search that begins where the lines ahead do. -/
theorem Marks.next {first : Nat} {stop : Record} (h : Marks lines s)
    (hstops : Stops first s s' stop) (hfirst : ∀ n, first ≤ n ↔ Ahead here n) :
    Next lines here s'.stoppedAt := by
  cases hstops with
  | @hit b hhit =>
    obtain ⟨hmem, hline, hleast⟩ := (find?_sorted h.sorted _ b).mp hhit
    refine .stop ((h.marked _).mp ⟨b, hmem, rfl⟩)
      ((hfirst _).mp (of_decide_eq_true hline)) fun l hl m hputs hahead => ?_
    obtain ⟨c, hc, rfl⟩ := (h.marked m).mpr ⟨l, hl, hputs⟩
    rcases hleast c hc (decide_eq_true ((hfirst _).mpr hahead)) with rfl | hlt | ⟨heq, -⟩
    · exact Nat.le_refl _
    · exact Nat.le_of_lt hlt
    · exact Nat.le_of_eq heq
  | ended hended =>
    refine .ended fun l hl m hputs hahead => ?_
    obtain ⟨c, hc, rfl⟩ := (h.marked m).mpr ⟨l, hl, hputs⟩
    exact List.find?_eq_none.mp hended c hc (decide_eq_true ((hfirst _).mpr hahead))

theorem Marks.of_stops {first : Nat} {stop : Record} (h : Marks lines s)
    (hstops : Stops first s s' stop) : Marks lines s' := by
  cases hstops with
  | @hit b hhit =>
    refine h.stoppedAt fun n hn => ?_
    obtain rfl := Option.some.inj hn
    exact (h.marked _).mp ⟨b, List.mem_of_find?_eq_some hhit, rfl⟩
  | ended => exact h.restarted

theorem Marks.concat (h : Marks lines s) (hputs : ∀ n, ¬Puts line n) :
    Marks (lines ++ [line]) s := by
  refine ⟨h.sorted, h.numbered, fun n => ?_, fun n hn => ?_⟩
  · simp [h.marked, hputs]
  · obtain ⟨l, hl, hmark⟩ := h.stopped n hn
    exact ⟨l, List.mem_append_left _ hl, hmark⟩

/-- A program stands at a line that a word stands behind, or at the last line. -/
theorem Marks.fits (h : Marks lines s) (hstopped : s.stoppedAt = some n) (hne : n ≠ lastLine) :
    n + 1 < Nat.pow 2 32 := by
  obtain ⟨l, -, hputs⟩ := h.stopped n hstopped
  exact le_lastLine_iff.mp (Nat.lt_of_le_of_ne hputs.le_lastLine hne)

/-- One more breakpoint comes in with a number that none had before. -/
theorem Marks.put {file : String} (h : Marks lines s) (hputs : Puts line n) :
    Marks (lines ++ [line])
      { s with inserted := s.inserted + 1,
               breakpoints := place ⟨n, s.inserted + 1⟩ s.breakpoints, file } := by
  have hnew : ∀ b ∈ s.breakpoints, b.number < s.inserted + 1 :=
    fun b hb => Nat.lt_succ_of_le (h.numbered b hb)
  refine ⟨place_sorted h.sorted hnew, fun b hb => ?_, fun m => ?_, fun m hm => ?_⟩
  · rcases mem_place.mp hb with rfl | hmem
    · exact Nat.le_refl _
    · exact Nat.le_of_lt (hnew b hmem)
  · have hline : n = m ↔ Puts line m := ⟨fun heq => heq ▸ hputs, hputs.unique⟩
    simp only [mem_place, List.mem_append, List.mem_singleton, or_and_right, exists_or,
      exists_eq_left, h.marked, hline]
    exact or_comm
  · obtain ⟨l, hl, hmark⟩ := h.stopped m hm
    exact ⟨l, List.mem_append_left _ hl, hmark⟩

theorem Turns.marks (hturns : Turns line s s') (h : Marks lines s) :
    Marks (lines ++ [line]) s' := by
  cases hturns with
  | put hputs => exact h.put hputs
  | run hrun hstops =>
    exact (h.restarted.of_stops hstops).concat fun _ => hrun.not_puts (by decide)
  | onward honward _ hstops => exact (h.of_stops hstops).concat fun _ => honward.not_puts (by decide)
  | still hputs => exact h.concat hputs

/-! ## The place of the program -/

/-- A line leads the program where it should. -/
theorem Turns.moves (hturns : Turns line s s') (h : Marks lines s) :
    Moves lines line s.stoppedAt s'.stoppedAt := by
  cases hturns with
  | put hputs =>
    exact .still (fun hrun => hrun.not_puts (by decide) hputs)
      (fun honward => absurd hputs (honward.not_puts (by decide)))
  | run hrun hstops => exact .run hrun (h.restarted.next hstops fun _ => zero_le_iff_ahead)
  | onward honward hstopped hstops =>
    rw [hstopped]
    exact .onward honward (h.next hstops fun _ => succ_le_iff_ahead)
  | still _ hrun honward => exact .still hrun honward

/-- Nothing else changes where the mock breaks down. -/
theorem Hears.breaks {digits args : List Char} (h : Hears line s s' rs)
    (hreading : s.status = .reading) (hline : Commands line digits name args)
    (hover : Overflows args s name) : s' = { s with status := .broken } := by
  rcases h.fits_or_breaks hreading with hfits | ⟨hbroken, -⟩
  · exact absurd hover (hfits _ _ _ hline)
  · exact hbroken

/-! ## Sessions -/

section
variable (hlines : ∀ line ∈ lines, '\n' ∉ line.toList)
include hlines

theorem Goes.turns (h : Goes lines (before ++ [line]))
    (hreading : (after before).status = .reading) (hfits : Fits line (after before)) :
    Turns line (after before) (after (before ++ [line])) := by
  obtain ⟨hmem, hexits⟩ := h.last
  obtain ⟨rs, hhears, -⟩ := after_hears (hlines line hmem) before
  exact hhears.turns (hlines line hmem) hreading hfits hexits

theorem Goes.marks (h : Goes lines before) (hreading : (after before).status = .reading) :
    Marks before (after before) := by
  induction before using List.reverseRecOn with
  | nil => exact Marks.start
  | append_singleton before line ih =>
    obtain ⟨rs, hhears, -⟩ := after_hears (hlines line h.last.1) before
    obtain ⟨hbefore, hfits⟩ := hhears.reading hreading
    exact (h.turns hlines hbefore hfits).marks (ih h.of_concat hbefore)

theorem InRange.stands (h : InRange lines) (hgoes : Goes lines before) :
    Stands before (after before).stoppedAt := by
  induction before using List.reverseRecOn with
  | nil => exact .start
  | append_singleton before line ih =>
    have hreading := h.reading hlines hgoes.of_concat
    have hmarks := hgoes.of_concat.marks hlines hreading
    exact .read (ih hgoes.of_concat)
      ((hgoes.turns hlines hreading (h.fits hlines hgoes)).moves hmarks)

end

theorem lastLine_not_fits : ¬lastLine + 1 < Nat.pow 2 32 := by decide

section
variable (hlines : ∀ line ∈ lines, '\n' ∉ line.toList) (hcount : lines.length < Nat.pow 2 32)
include hlines hcount

theorem Goes.numbers_fit (h : Goes lines (before ++ [line])) :
    (after before).inserted + 1 < Nat.pow 2 32 := by
  have hle := inserted_le fun l hl => hlines l (h.of_concat.first.subset hl)
  have hlength := h.first.length_le
  rw [List.length_append, List.length_singleton] at hlength
  omega

/-- A line needs no sum but words, unless it is to go on from the last line. -/
theorem Goes.fits (h : Goes lines (before ++ [line])) (hmarks : Marks before (after before))
    (hlast : Orders line "exec-continue" → (after before).stoppedAt ≠ some lastLine) :
    Fits line (after before) := by
  intro digits name args hline hover
  rcases hover.known with rfl | rfl
  · exact hover.of_insert rfl (h.numbers_fit hlines hcount)
  · obtain ⟨n, hstopped, hover⟩ := hover.of_continue rfl
    have honward : Orders line "exec-continue" := ⟨hlines line h.last.1, _, _, hline⟩
    exact hover (hmarks.fits hstopped fun heq => hlast honward (heq ▸ hstopped))

/-- The mock reads on and leads the program where it should, as long as that is not to go on from
the last line. -/
theorem Goes.stands (h : Goes lines before)
    (hlast : ∀ before line, Goes lines (before ++ [line]) → Orders line "exec-continue" →
      (after before).status = .reading → Stands before (after before).stoppedAt →
      (after before).stoppedAt ≠ some lastLine) :
    (after before).status = .reading ∧ Stands before (after before).stoppedAt := by
  induction before using List.reverseRecOn with
  | nil => exact ⟨rfl, .start⟩
  | append_singleton before line ih =>
    obtain ⟨hreading, hstands⟩ := ih h.of_concat
    obtain ⟨hmem, hexits⟩ := h.last
    have hmarks := h.of_concat.marks hlines hreading
    have hfits : Fits line (after before) :=
      h.fits hlines hcount hmarks fun honward => hlast before line h honward hreading hstands
    obtain ⟨rs, hhears, -⟩ := after_hears (hlines line hmem) before
    exact ⟨(hhears.status_eq hexits hfits).trans hreading,
      .read hstands ((h.turns hlines hreading hfits).moves hmarks)⟩

/-- The sums are words as long as the rule never has a program go on from the last line. -/
theorem inRange_iff_never :
    InRange lines ↔ ∀ before line, Goes lines (before ++ [line]) →
      Orders line "exec-continue" → ¬Stands before (some lastLine) := by
  constructor
  · intro h before line hgoes honward hstands
    have hstopped := (h.stands hlines hgoes.of_concat).unique hstands
    exact lastLine_not_fits (h.places _ _ _ hgoes honward hstopped)
  · intro h
    refine (inRange_iff_reading hlines).mpr fun before hgoes => ?_
    refine (hgoes.stands hlines hcount fun before line hnext honward _ hstands hlast => ?_).1
    exact h before line hnext honward (hlast ▸ hstands)

/-- A sum that is no word shows: the program is somewhere, where it should have ended. -/
theorem inRange_iff_stands :
    InRange lines ↔ ∀ before, Goes lines before → Stands before (after before).stoppedAt := by
  refine ⟨fun h _ => h.stands hlines, fun h => ?_⟩
  refine (inRange_iff_reading hlines).mpr fun before hgoes => ?_
  refine (hgoes.stands hlines hcount fun before line hnext honward hreading hstands hlast => ?_).1
  -- The mock breaks down over this line, and the program stays where it is.
  have ⟨hnewline, _, _, hline⟩ := honward
  obtain ⟨rs, hhears, -⟩ := after_hears hnewline before
  have hbroken := hhears.breaks hreading hline (.place hlast lastLine_not_fits)
  have hstays : Stands (before ++ [line]) (some lastLine) := by
    have hthere := h _ hnext
    rwa [hbroken, hlast] at hthere
  obtain ⟨here, hhere, hmoves⟩ := stands_concat hstays
  obtain rfl := hstands.unique hhere
  rw [hlast] at hmoves
  cases hmoves with
  | run hrun => exact absurd (hrun.name_unique honward) (by decide)
  | onward _ hto =>
    cases hto with
    | stop _ hahead => exact absurd (hahead _ rfl) (Nat.lt_irrefl _)
  | still _ hno => exact absurd (hno honward) (Option.some_ne_none _)

end

/-- Numbers of breakpoints are words, however often one is put in.  The lines behind the places
where a program goes on are words exactly as long as the mock does not break down, exactly if the
program is never to go on from the last line, and exactly if the mock always leads it to the next
breakpoint ahead or to its end.  For this it is enough that no breakpoint is on the last line. -/
theorem additions_fit_iff (hlines : ∀ line ∈ lines, '\n' ∉ line.toList)
    (hcount : lines.length < Nat.pow 2 32) :
    (∀ before line n, Goes lines (before ++ [line]) → Puts line n →
      (after before).inserted + 1 < Nat.pow 2 32) ∧
    (InRange lines ↔ ∀ before, Goes lines before → (after before).status = .reading) ∧
    (InRange lines ↔ ∀ before line, Goes lines (before ++ [line]) →
      Orders line "exec-continue" → ¬Stands before (some lastLine)) ∧
    (InRange lines ↔ ∀ before, Goes lines before → Stands before (after before).stoppedAt) ∧
    ((∀ line ∈ lines, ¬Puts line lastLine) → InRange lines) := by
  refine ⟨fun _ _ _ hgoes _ => hgoes.numbers_fit hlines hcount, inRange_iff_reading hlines,
    inRange_iff_never hlines hcount, inRange_iff_stands hlines hcount, fun hnone => ?_⟩
  refine (inRange_iff_reading hlines).mpr fun before hgoes => ?_
  refine (hgoes.stands hlines hcount fun before line hnext _ hreading _ hlast => ?_).1
  obtain ⟨l, hl, hputs⟩ := (hnext.of_concat.marks hlines hreading).stopped _ hlast
  exact hnone l (hnext.of_concat.first.subset hl) hputs

/-- A breakpoint on the last line but one, where the program stops and goes on. -/
def farLines : List String :=
  ["1-break-insert f:4294967294", "2-exec-run", "3-exec-continue"]

theorem additions_fit_iff_farLines :
    (∀ line ∈ farLines, '\n' ∉ line.toList) ∧ farLines.length < Nat.pow 2 32 ∧
      (∀ line ∈ farLines, ¬Puts line lastLine) ∧ InRange farLines ∧
      ∀ before, Goes farLines before →
        (after before).status = .reading ∧ Stands before (after before).stoppedAt := by
  have hlocation : location? (Text.trimChars "f:4294967294".toList) =
      some ("f".toList, 4294967294) := by decide
  have hputs : Puts "1-break-insert f:4294967294" 4294967294 :=
    puts_of_location (by decide) (by decide) hlocation
  have hlines : ∀ line ∈ farLines, '\n' ∉ line.toList :=
    List.forall_mem_cons.mpr ⟨hputs.1, List.forall_mem_cons.mpr
      ⟨run_orders.1, List.forall_mem_singleton.mpr continue_orders.1⟩⟩
  have hcount : farLines.length < Nat.pow 2 32 := by decide
  have hfirst : ¬Puts "1-break-insert f:4294967294" lastLine :=
    fun h => absurd (hputs.unique h) (by decide)
  have hnone : ∀ line ∈ farLines, ¬Puts line lastLine :=
    List.forall_mem_cons.mpr ⟨hfirst, List.forall_mem_cons.mpr
      ⟨run_orders.not_puts (by decide),
        List.forall_mem_singleton.mpr (continue_orders.not_puts (by decide))⟩⟩
  obtain ⟨-, hreading, -, hstands, hrange⟩ := additions_fit_iff hlines hcount
  exact ⟨hlines, hcount, hnone, hrange hnone, fun before hgoes =>
    ⟨hreading.mp (hrange hnone) before hgoes, hstands.mp (hrange hnone) before hgoes⟩⟩

/-- The program stands on the last line and is to go on.  The sum for that is no word, and the mock
breaks down where the program should have ended. -/
theorem last_line_breaks :
    (∀ line ∈ farthestLines, '\n' ∉ line.toList) ∧ farthestLines.length < Nat.pow 2 32 ∧
      ¬InRange farthestLines ∧ (after farthestLines).status = .broken ∧
      (after farthestLines).stoppedAt = some lastLine ∧
      Debugger.mock.output (inputs farthestLines) = [] ∧
      Debugger.mock.ended (inputs farthestLines) = true := by
  obtain ⟨hlines, hgoes⟩ := goes_farthestLines
  have hbroken : (after farthestLines).status = .broken := by decide +kernel
  refine ⟨hlines, by decide, fun h => ?_, hbroken, by decide +kernel, by decide +kernel,
    by decide +kernel⟩
  have hreading := h.reading hlines hgoes
  rw [hbroken] at hreading
  cases hreading

end Mock
end CheckScript
