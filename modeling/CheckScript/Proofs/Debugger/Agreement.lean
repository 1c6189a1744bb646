/-
The mock debugger and the reader of records agree.

Every line that the mock writes is accepted.  What it writes in answer to a line is read as
records with one result among them, which has the token of the line, and every text that was put
between quotes is read as it came in.  Over a line that needs a sum which is no word the mock
breaks down instead, and writes nothing (`wire_agreement`).
-/
import CheckScript.Proofs.Debugger.Session

namespace CheckScript
namespace Debugger

/-- All that a debugger has written when it has gone through some events. -/
def written (d : Debugger) : List Event → List String
  | [] => d.output []
  | e :: events => written d events ++ d.output (e :: events)

end Debugger

namespace Mock

/-! ## What an answer says -/

def ofKind (kind : RecordKind) (rs : List Record) : List Record := rs.filter fun r => r.kind = kind

/-- A record that is about the place where the program stands. -/
inductive Frames (line : String) (r : Record) : Prop where
  | field (h : (r.find? "frame").isSome = true)
  | hit (h : r.find? "reason" = some (.const "breakpoint-hit"))
  | asked {digits args : List Char} (hline : Commands line digits "stack-info-frame" args)
      (hclass : r.className = "done")

/-- The records of an answer tell what they were written for.  Texts between quotes are those
of the line, and the file of a frame is that of the latest breakpoint before the line. -/
structure Understood (before : List String) (line : String) (rs : List Record) : Prop where
  result : ∀ digits rest, Parts (Text.trimChars line.toList) digits rest →
    Text.trimChars line.toList ≠ [] → Text.trimChars line.toList ≠ "ping".toList →
    ∃ r, ofKind .result rs = [r] ∧ ∀ t, r.token = some t ↔ Mi.Spells digits t
  inserted : ∀ v, (∃ r ∈ rs, r.find? "bkpt.file" = some v) ↔
    ∃ file, Inserts line file ∧ v = .const (String.ofList file)
  framed : ∀ r ∈ rs, Frames line r →
    ∃ file, Latest before file ∧ r.find? "frame.file" = some (.const (String.ofList file))
  started : ∀ digits args, Commands line digits "exec-run" args →
    (∃ l ∈ before, ∃ file, Inserts l file) → ∃ r ∈ rs, Frames line r
  stray : ∀ digits rest, Parts (Text.trimChars line.toList) digits rest →
    Text.trimChars line.toList ≠ [] → Text.trimChars line.toList ≠ "ping".toList →
    rest.head? ≠ some '-' → ∃ r ∈ rs, r.find? "msg" =
      some (.const ("Undefined command: \"" ++ String.ofList rest ++ "\""))
  unknown : ∀ digits name args, Commands line digits name args → name ∉ commandNames →
    ∃ r ∈ rs, r.find? "msg" = some (.const ("Undefined MI command: " ++ name))
  echoed : ∀ digits args, Commands line digits "echo" args →
    ∃ r, ofKind .console rs = [r] ∧ r.text = some (String.ofList (args ++ ['\n']))

/-! ## Results -/

theorem ofKind_promptAfter {kind : RecordKind} (h : kind ≠ .prompt) (s : State) :
    ofKind kind (promptAfter s) = [] := by
  unfold promptAfter
  split
  · exact List.filter_cons_of_neg fun hkind => h (of_decide_eq_true hkind).symm
  · rfl

theorem ofKind_append (kind : RecordKind) (rs rs' : List Record) :
    ofKind kind (rs ++ rs') = ofKind kind rs ++ ofKind kind rs' :=
  List.filter_append ..

theorem Carries.result {digits args : List Char} {name : String} {s s' : State}
    {rs : List Record} (h : Carries digits args s name s' rs) :
    ∃ r, ofKind .result rs = [r] ∧ r.token = Mi.tokenOf digits := by
  cases h with
  | ran h | resumed _ _ h => cases h <;> exact ⟨_, rfl, rfl⟩
  | inserted | misplaced | listed | notRunning | noStack | framed | echoed | exited | unknown =>
    exact ⟨_, rfl, rfl⟩

theorem Answers.result {cs digits rest : List Char} {s s' : State} {rs : List Record}
    (h : Answers cs s s' rs) (hping : cs ≠ "ping".toList) (hparts : Parts cs digits rest) :
    ∃ r, ofKind .result rs = [r] ∧ r.token = Mi.tokenOf digits := by
  have hdigits := hparts.unique.1
  cases h with
  | ping h => exact absurd h hping
  | stray _ hstray =>
    rw [hdigits, ← hstray.unique.1]
    exact ⟨_, rfl, rfl⟩
  | command hcommand _ h =>
    rw [hdigits, ← hcommand.unique.1]
    exact h.result

theorem Hears.result {line : String} {digits rest : List Char} {s s' : State} {rs : List Record}
    (h : Hears line s s' rs) (hreading : s.status = .reading) (hfits : Fits line s)
    (hline : Text.trimChars line.toList ≠ []) (hping : Text.trimChars line.toList ≠ "ping".toList)
    (hparts : Parts (Text.trimChars line.toList) digits rest) :
    ∃ r, ofKind .result rs = [r] ∧ ∀ t, r.token = some t ↔ Mi.Spells digits t := by
  obtain ⟨rs', hanswers, rfl⟩ := h.answers hreading hfits hline
  obtain ⟨r, hr, htoken⟩ := hanswers.result hping hparts
  have hprompt : RecordKind.result ≠ .prompt := by decide
  refine ⟨r, ?_, fun t => ?_⟩
  · rw [ofKind_append, ofKind_promptAfter hprompt, hr, List.append_nil]
  · rw [htoken]
    exact Mi.tokenOf_eq_some hparts.all_digits

/-! ## Files -/

theorem Carries.of_bkpt {digits args : List Char} {name : String} {s s' : State}
    {rs : List Record} (h : Carries digits args s name s' rs) {r : Record} (hr : r ∈ rs)
    {v : RecordValue} (hv : r.find? "bkpt.file" = some v) :
    name = "break-insert" ∧ ∃ file n, Locates args file n ∧ v = .const (String.ofList file) := by
  cases h with
  | inserted h =>
    obtain rfl := List.mem_singleton.mp hr
    exact ⟨rfl, _, _, location?_eq_some.mp h, (Option.some.inj hv).symm⟩
  | ran h | resumed _ _ h =>
    simp only [runRecords, List.mem_cons, List.not_mem_nil, or_false] at hr
    rcases hr with rfl | rfl | rfl
    · cases hv
    · cases hv
    · cases h <;> cases hv
  | echoed =>
    simp only [List.mem_cons, List.not_mem_nil, or_false] at hr
    rcases hr with rfl | rfl <;> cases hv
  | misplaced | listed | notRunning | noStack | framed | exited | unknown =>
    obtain rfl := List.mem_singleton.mp hr
    cases hv

theorem not_frames_of_class {line className : String} {r : Record}
    (hfield : r.find? "frame" = none)
    (hhit : r.find? "reason" ≠ some (.const "breakpoint-hit")) (hr : r.className = className)
    (hclass : className ≠ "done") : ¬Frames line r := by
  intro h
  cases h with
  | field h => rw [hfield] at h; cases h
  | hit h => exact hhit h
  | asked _ h => exact hclass (hr.symm.trans h)

theorem errorRecord_not_frames (line : String) (digits : List Char) (message : String) :
    ¬Frames line (errorRecord digits message) := by
  have hclass : "error" ≠ "done" := by decide
  exact not_frames_of_class rfl nofun rfl hclass

/-- Another command than the question for the frame is told by the fields alone. -/
theorem not_frames {line name : String} {digits args : List Char} {r : Record}
    (hline : Commands line digits name args) (hname : name ≠ "stack-info-frame")
    (hfield : r.find? "frame" = none)
    (hhit : r.find? "reason" ≠ some (.const "breakpoint-hit")) : ¬Frames line r := by
  intro h
  cases h with
  | field h => rw [hfield] at h; cases h
  | hit h => exact hhit h
  | asked h _ => exact hname (hline.unique h).2.1

/-- Of a run, only its end says where the program stands. -/
theorem Stops.frames {line name : String} {digits args : List Char} {first : Nat}
    {s s' : State} {stop r : Record} (h : Stops first s s' stop)
    (hline : Commands line digits name args) (hname : name ≠ "stack-info-frame")
    (hr : r ∈ runRecords digits stop) (hframes : Frames line r) :
    r.find? "frame.file" = some (.const s.file) ∧ s.breakpoints ≠ [] := by
  simp only [runRecords, List.mem_cons, List.not_mem_nil, or_false] at hr
  rcases hr with rfl | rfl | rfl
  · exact absurd hframes (not_frames hline hname rfl nofun)
  · exact absurd hframes (not_frames hline hname rfl nofun)
  · cases h with
    | hit h =>
      refine ⟨rfl, fun hnone => ?_⟩
      rw [hnone] at h
      cases h
    | ended =>
      refine absurd hframes (not_frames hline hname rfl fun h => ?_)
      exact absurd (RecordValue.const.inj (Option.some.inj h)) (by decide)

/-- Only a run or a question for the frame says where the program stands, and only once there
was a breakpoint. -/
theorem Carries.frames {line name : String} {digits args : List Char} {s s' : State}
    {rs : List Record} (h : Carries digits args s name s' rs)
    (hline : Commands line digits name args) {r : Record} (hr : r ∈ rs)
    (hframes : Frames line r) :
    r.find? "frame.file" = some (.const s.file) ∧ (s.breakpoints ≠ [] ∨ s.stoppedAt ≠ none) := by
  cases h with
  | framed h =>
    obtain rfl := List.mem_singleton.mp hr
    exact ⟨rfl, .inr (by rw [h]; exact Option.some_ne_none _)⟩
  | ran h =>
    obtain ⟨hfile, hsome⟩ := h.frames hline (by decide) hr hframes
    exact ⟨hfile, .inl hsome⟩
  | resumed _ _ h =>
    obtain ⟨hfile, hsome⟩ := h.frames hline (by decide) hr hframes
    exact ⟨hfile, .inl hsome⟩
  | misplaced | notRunning | noStack | unknown =>
    obtain rfl := List.mem_singleton.mp hr
    exact absurd hframes (errorRecord_not_frames _ _ _)
  | inserted | listed | exited =>
    obtain rfl := List.mem_singleton.mp hr
    exact absurd hframes (not_frames hline (by decide) rfl nofun)
  | echoed =>
    simp only [List.mem_cons, List.not_mem_nil, or_false] at hr
    rcases hr with rfl | rfl <;> exact absurd hframes (not_frames hline (by decide) rfl nofun)

theorem prompt_of_mem_promptAfter {s : State} {r : Record} (h : r ∈ promptAfter s) :
    r = .prompt "" := by
  unfold promptAfter at h
  split at h
  · exact List.mem_singleton.mp h
  · cases h

theorem Hears.frames {line : String} {s s' : State} {rs : List Record} (h : Hears line s s' rs)
    {r : Record} (hr : r ∈ rs) (hframes : Frames line r) :
    r.find? "frame.file" = some (.const s.file) ∧ (s.breakpoints ≠ [] ∨ s.stoppedAt ≠ none) := by
  cases h with
  | unread | blank | broken => cases hr
  | answered _ _ h =>
    rcases List.mem_append.mp hr with hmem | hmem
    · cases h with
      | ping =>
        obtain rfl := List.mem_singleton.mp hmem
        exact absurd hframes (not_frames_of_class rfl nofun rfl (by decide))
      | stray =>
        obtain rfl := List.mem_singleton.mp hmem
        exact absurd hframes (errorRecord_not_frames _ _ _)
      | command hparts hcalls h => exact h.frames ⟨_, hparts, hcalls⟩ hmem hframes
    · rw [prompt_of_mem_promptAfter hmem] at hframes
      exact absurd hframes (not_frames_of_class rfl nofun rfl (by decide))

theorem Hears.of_bkpt {line : String} {s s' : State} {rs : List Record} (h : Hears line s s' rs)
    {r : Record} (hr : r ∈ rs) {v : RecordValue} (hv : r.find? "bkpt.file" = some v) :
    ∃ file, Inserts line file ∧ v = .const (String.ofList file) := by
  cases h with
  | unread | blank | broken => cases hr
  | answered _ _ h =>
    rcases List.mem_append.mp hr with hmem | hmem
    · cases h with
      | ping | stray =>
        obtain rfl := List.mem_singleton.mp hmem
        cases hv
      | command hparts hcalls h =>
        obtain ⟨rfl, file, n, hlocates, rfl⟩ := h.of_bkpt hmem hv
        exact ⟨file, ⟨_, _, n, ⟨_, hparts, hcalls⟩, hlocates⟩, rfl⟩
    · rw [prompt_of_mem_promptAfter hmem] at hv
      cases hv

/-- A program can only stand somewhere behind a breakpoint. -/
theorem Knows.latest_of {lines : List String} {s : State} (h : Knows lines s)
    (hsome : s.breakpoints ≠ [] ∨ s.stoppedAt ≠ none) :
    ∃ file, Latest lines file ∧ s.file = String.ofList file := by
  cases h with
  | fresh _ hnone hstopped => exact absurd hsome (by simp [hnone, hstopped])
  | latest _ hlatest hfile => exact ⟨_, hlatest, hfile⟩

/-- A run from the start stops if there is a breakpoint. -/
theorem Stops.hits {line : String} {s s' : State} {stop : Record} (h : Stops 0 s s' stop)
    (hsome : s.breakpoints ≠ []) : Frames line stop := by
  cases h with
  | hit => exact .hit rfl
  | ended h =>
    obtain ⟨b, bs, hbs⟩ := List.exists_cons_of_ne_nil hsome
    rw [hbs, List.find?_cons_of_pos (by simp)] at h
    cases h

/-! ## Messages and echoes -/

theorem Hears.stray {line : String} {digits rest : List Char} {s s' : State} {rs : List Record}
    (h : Hears line s s' rs) (hreading : s.status = .reading) (hfits : Fits line s)
    (hparts : Parts (Text.trimChars line.toList) digits rest)
    (hline : Text.trimChars line.toList ≠ []) (hping : Text.trimChars line.toList ≠ "ping".toList)
    (hdash : rest.head? ≠ some '-') :
    ∃ r ∈ rs, r.find? "msg" =
      some (.const ("Undefined command: \"" ++ String.ofList rest ++ "\"")) := by
  obtain ⟨rs', hanswers, rfl⟩ := h.answers hreading hfits hline
  cases hanswers with
  | ping hcs => exact absurd hcs hping
  | stray _ hstray =>
    rw [hparts.unique.2, ← hstray.unique.2]
    exact ⟨_, List.mem_cons_self, rfl⟩
  | command hcommand hcalls =>
    obtain ⟨cs, rfl⟩ := hcalls.dash
    rw [hparts.unique.2, ← hcommand.unique.2] at hdash
    exact absurd rfl hdash

theorem Carries.unknown_msg {digits args : List Char} {name : String} {s s' : State}
    {rs : List Record} (h : Carries digits args s name s' rs) (hname : name ∉ commandNames) :
    ∃ r ∈ rs, r.find? "msg" = some (.const ("Undefined MI command: " ++ name)) := by
  cases h with
  | unknown => exact ⟨_, List.mem_cons_self, rfl⟩
  | inserted | misplaced | listed | ran | notRunning | resumed | noStack | framed | echoed |
      exited =>
    exact absurd (by decide) hname

theorem Carries.echo {digits args : List Char} {name : String} {s s' : State}
    {rs : List Record} (h : Carries digits args s name s' rs) (hname : name = "echo") :
    ∃ r, ofKind .console rs = [r] ∧ r.text = some (String.ofList (args ++ ['\n'])) := by
  cases h with
  | echoed => exact ⟨_, rfl, rfl⟩
  | unknown h => exact absurd (hname ▸ by decide) h
  | inserted | misplaced | listed | ran | notRunning | resumed | noStack | framed | exited =>
    exact absurd hname (by decide)

theorem Carries.start {line : String} {digits args : List Char} {name : String} {s s' : State}
    {rs : List Record} (h : Carries digits args s name s' rs) (hname : name = "exec-run")
    (hsome : s.breakpoints ≠ []) : ∃ r ∈ rs, Frames line r := by
  obtain ⟨stop, hstops, rfl⟩ := h.runs hname
  exact ⟨stop, by simp [runRecords], hstops.hits hsome⟩

theorem Hears.understood {before : List String} {line : String} {s s' : State}
    {rs : List Record} (h : Hears line s s' rs) (hreading : s.status = .reading)
    (hfits : Fits line s) (hknows : Knows before s) : Understood before line rs where
  result _ _ hparts hline hping := h.result hreading hfits hline hping hparts
  inserted v := by
    constructor
    · rintro ⟨r, hr, hv⟩
      exact h.of_bkpt hr hv
    · rintro ⟨file, ⟨digits, args, n, hline, hlocates⟩, rfl⟩
      obtain ⟨rs', hcarries, rfl⟩ := h.carries hreading hfits hline
      obtain ⟨-, -, r, hr, hfile⟩ := hcarries.inserts rfl hlocates
      exact ⟨r, List.mem_append_left _ hr, hfile⟩
  framed r hr hframes := by
    obtain ⟨hfile, hsome⟩ := h.frames hr hframes
    obtain ⟨file, hlatest, hlast⟩ := hknows.latest_of hsome
    exact ⟨file, hlatest, hlast ▸ hfile⟩
  started digits args hline hinserts := by
    obtain ⟨rs', hcarries, rfl⟩ := h.carries hreading hfits hline
    have hsome : s.breakpoints ≠ [] := by
      cases hknows with
      | fresh hlines =>
        obtain ⟨l, hl, file, hfile⟩ := hinserts
        exact absurd hfile (hlines l hl file)
      | latest hsome => exact hsome
    obtain ⟨r, hr, hframes⟩ := hcarries.start rfl hsome
    exact ⟨r, List.mem_append_left _ hr, hframes⟩
  stray _ _ hparts hline hping hdash := h.stray hreading hfits hparts hline hping hdash
  unknown digits name args hline hname := by
    obtain ⟨rs', hcarries, rfl⟩ := h.carries hreading hfits hline
    obtain ⟨r, hr, hmsg⟩ := hcarries.unknown_msg hname
    exact ⟨r, List.mem_append_left _ hr, hmsg⟩
  echoed digits args hline := by
    obtain ⟨rs', hcarries, rfl⟩ := h.carries hreading hfits hline
    obtain ⟨r, hr, htext⟩ := hcarries.echo rfl
    have hprompt : RecordKind.console ≠ .prompt := by decide
    refine ⟨r, ?_, htext⟩
    rw [ofKind_append, ofKind_promptAfter hprompt, hr, List.append_nil]

/-- A command without an answer lacks its result. -/
theorem not_understood_nil {before : List String} {line name : String} {digits args : List Char}
    (hline : Commands line digits name args) : ¬Understood before line [] := by
  intro h
  have hnonblank := hline.nonblank
  have hping := hline.not_ping
  obtain ⟨rest, hparts, -⟩ := hline
  obtain ⟨r, hr, -⟩ := h.result _ _ hparts hnonblank hping
  cases hr

/-- Nothing that is written can be understood where the mock breaks down. -/
theorem Hears.fits_of_understood {before texts : List String} {line : String} {s s' : State}
    {rs rs' : List Record} (h : Hears line s s' rs) (hreading : s.status = .reading)
    (hreads : List.Forall₂ Reads texts rs) (hreads' : List.Forall₂ Reads texts rs')
    (hunderstood : Understood before line rs') : Fits line s := by
  refine (h.fits_or_breaks hreading).resolve_right ?_
  rintro ⟨-, rfl, _, _, _, hline⟩
  cases hreads
  cases hreads'
  exact not_understood_nil hline hunderstood

/-! ## The session -/

def Accepted (line : String) : Prop := ∃ r, Mi.read line = .ok r

theorem accepted_of_reads {lines : List String} {rs : List Record}
    (h : List.Forall₂ Reads lines rs) : ∀ line ∈ lines, Accepted line := by
  induction h with
  | nil => exact fun _ hline => nomatch hline
  | cons hreads _ ih =>
    intro line hline
    rcases List.mem_cons.mp hline with rfl | hmem
    · exact ⟨_, hreads⟩
    · exact ih line hmem

theorem greeting_accepted : ∀ line ∈ greeting, Accepted line := by
  have hfield : Mi.ResultsText [("id", .const "i1")] (',' :: (field "id" "i1").toList) := by
    have hwrites : Writes ("id", .const "i1") (field "id" "i1") :=
      writes_plain (by decide) (by decide)
    have htext := results_text (.cons hwrites .nil)
    rwa [List.flatMap_cons, List.flatMap_nil, List.append_nil] at htext
  have hnotify : Accepted ("=thread-group-added," ++ field "id" "i1") := by
    have hdigits : ∀ c ∈ ([] : List Char), Text.isDigit c = true := fun _ h => nomatch h
    have hkind : RecordKind.notify ∈ Mi.classKinds := by decide
    have hnonempty : "thread-group-added" ≠ "" := by decide
    refine ⟨_, Mi.read_line hdigits hkind rfl hnonempty (by decide) (by decide) nofun hfield ?_⟩
    rw [String.toList_append]
    rfl
  intro line hline
  simp only [greeting, List.mem_cons, List.not_mem_nil, or_false] at hline
  rcases hline with rfl | rfl
  · exact hnotify
  · exact ⟨_, prompt_reads⟩

theorem hearAll_accepted (lines : List String) (s : State) :
    ∀ line ∈ (hearAll lines s).2, Accepted line := by
  induction lines using List.reverseRecOn with
  | nil => exact fun _ h => nomatch h
  | append_singleton lines line ih =>
    have hlast : (hearAll (lines ++ [line]) s).2 =
        (hearAll lines s).2 ++ (hear line (hearAll lines s).1).2 := by
      simp only [hearAll, List.foldl_append, List.foldl_cons, List.foldl_nil]
    obtain ⟨rs, -, hreads⟩ := hear_hears line (hearAll lines s).1
    rw [hlast]
    intro text htext
    rcases List.mem_append.mp htext with hmem | hmem
    · exact ih text hmem
    · exact accepted_of_reads hreads text hmem

/-- Nothing that the mock ever writes is refused, whatever reaches its input. -/
theorem written_accepted (events : List Event) :
    ∀ line ∈ Debugger.mock.written events, Accepted line := by
  induction events with
  | nil => exact greeting_accepted
  | cons e events ih =>
    intro line hline
    rcases List.mem_append.mp hline with hmem | hmem
    · exact ih line hmem
    · cases e with
      | input text => exact hearAll_accepted _ _ line hmem
      | lost | wait | inputEnd => cases hmem

/-- What is written about a line, behind the lines before it, is read as records that tell what
they were written for. -/
def Agrees (before : List String) (line : String) : Prop :=
  ∃ rs, List.Forall₂ Reads (Debugger.mock.output (.input line :: inputs before)) rs ∧
    Understood before line rs

section
variable {lines : List String} (hlines : ∀ line ∈ lines, '\n' ∉ line.toList)
include hlines

theorem InRange.agrees (h : InRange lines) {before rest : List String} {line : String}
    (hsplit : lines = before ++ line :: rest) (hexits : ∀ l ∈ before, ¬Exits l) :
    Agrees before line := by
  subst hsplit
  have hbefore : ∀ l ∈ before, '\n' ∉ l.toList := fun l hl =>
    hlines l (List.mem_append_left _ hl)
  have hline : '\n' ∉ line.toList := hlines line (List.mem_append_right _ List.mem_cons_self)
  have hreading : (after before).status = .reading :=
    h.reading hlines ⟨List.prefix_append _ _, hexits⟩
  have hfits : Fits line (after before) := by
    by_cases hlast : Exits line
    · obtain ⟨_, _, hcommands⟩ := hlast
      exact fits_of_name hcommands (by decide)
    · refine h.fits hlines ⟨⟨rest, List.append_assoc _ _ _⟩, fun l hl => ?_⟩
      rcases List.mem_append.mp hl with hmem | hmem
      · exact hexits l hmem
      · exact List.mem_singleton.mp hmem ▸ hlast
  obtain ⟨rs, hhears, hreads⟩ := after_hears hline before
  exact ⟨rs, hreads, hhears.understood hreading hfits (after_knows hbefore hreading)⟩

/-- A mock that has broken down has left a line without its result. -/
theorem inRange_of_agrees (h : ∀ before line rest, lines = before ++ line :: rest →
    (∀ l ∈ before, ¬Exits l) → Agrees before line) : InRange lines := by
  refine (inRange_iff_reading hlines).mpr fun before hgoes => ?_
  induction before using List.reverseRecOn with
  | nil => rfl
  | append_singleton before line ih =>
    obtain ⟨hmem, hexits⟩ := hgoes.last
    have hreading := ih hgoes.of_concat
    obtain ⟨rest, hrest⟩ := hgoes.first
    obtain ⟨rs, hreads, hunderstood⟩ :=
      h before line rest (by rw [← hrest, List.append_assoc]; rfl) hgoes.of_concat.noExit
    obtain ⟨rs', hhears, hreads'⟩ := after_hears (hlines line hmem) before
    have hfits := hhears.fits_of_understood hreading hreads' hreads hunderstood
    exact (hhears.status_eq hexits hfits).trans hreading

end

/-- Lines go to the mock one after another.  All that it writes is accepted.  As long as the sums
that the mock needs are words, every line up to and with the first one that ends it is answered
with records that tell what they were written for.  Once a sum is none, a line is left without
its answer. -/
theorem wire_agreement (lines : List String) (hlines : ∀ line ∈ lines, '\n' ∉ line.toList) :
    (∀ line ∈ Debugger.mock.written (inputs lines), Accepted line) ∧
      (∀ before line rest, lines = before ++ line :: rest → (∀ l ∈ before, ¬Exits l) →
        InRange (before ++ [line]) → Agrees before line) ∧
      ((∀ before line rest, lines = before ++ line :: rest → (∀ l ∈ before, ¬Exits l) →
        Agrees before line) ↔ InRange lines) := by
  refine ⟨written_accepted _, fun before line rest hsplit hexits hrange => ?_,
    inRange_of_agrees hlines, fun hrange _ _ _ hsplit hexits => hrange.agrees hlines hsplit hexits⟩
  have hfirst : before ++ [line] <+: lines := ⟨rest, by rw [hsplit, List.append_assoc]; rfl⟩
  exact hrange.agrees (fun l hl => hlines l (hfirst.subset hl)) rfl hexits

/-- A session with quotes, backslashes and braces wherever a text can stand. -/
def quotedLines : List String :=
  ["1-break-insert \"a\" \x7bb,\\c\x7d:7:3", "-exec-run", "18446744073709551616say \"\\\"",
    "2-stack-info-frame", "-echo \\n \"", "-un\"known\\ ", "3-gdb-exit"]

theorem wire_agreement_quotedLines :
    (∀ line ∈ quotedLines, '\n' ∉ line.toList) ∧
      (∀ line ∈ Debugger.mock.written (inputs quotedLines), Accepted line) ∧
      ∀ before line rest, quotedLines = before ++ line :: rest → (∀ l ∈ before, ¬Exits l) →
        Agrees before line := by
  have hall : (quotedLines.all fun line => !line.toList.contains '\n') = true := by decide
  have hlines : ∀ line ∈ quotedLines, '\n' ∉ line.toList := fun line hline => by
    simpa using List.all_eq_true.mp hall line hline
  have hexit : Orders "3-gdb-exit" "gdb-exit" := orders_bare (by decide) (by decide) (by decide)
  have hreading : ∀ n < quotedLines.length, (after (quotedLines.take n)).status = .reading := by
    decide +kernel
  have hrange : InRange quotedLines := by
    refine (inRange_iff_reading hlines).mpr fun before hgoes => ?_
    rw [List.prefix_iff_eq_take.mp hgoes.first]
    refine hreading _ (Nat.lt_of_le_of_ne hgoes.first.length_le fun hlength => ?_)
    refine hgoes.noExit "3-gdb-exit" ?_ hexit.2
    rw [hgoes.first.eq_of_length hlength]
    decide
  obtain ⟨haccepted, -, hagrees⟩ := wire_agreement quotedLines hlines
  exact ⟨hlines, haccepted, hagrees.mpr hrange⟩

/-- The program stands on the last line and is to go on.  No word stands behind that line, and the
command has no result. -/
theorem last_line_unanswered :
    (∀ line ∈ farthestLines, '\n' ∉ line.toList) ∧ (∀ line ∈ farthestLines, ¬Exits line) ∧
      farthestLines = farthestLines.dropLast ++ ["3-exec-continue"] ∧
      Debugger.mock.output (.input "3-exec-continue" :: inputs farthestLines.dropLast) = [] ∧
      ¬Agrees farthestLines.dropLast "3-exec-continue" := by
  have hsilent : Debugger.mock.output
      (.input "3-exec-continue" :: inputs farthestLines.dropLast) = [] := by decide +kernel
  obtain ⟨hlines, hgoes⟩ := goes_farthestLines
  refine ⟨hlines, hgoes.noExit, rfl, hsilent, ?_⟩
  rintro ⟨rs, hreads, hunderstood⟩
  rw [hsilent] at hreads
  cases hreads
  obtain ⟨-, _, _, hcommands⟩ := continue_orders
  exact not_understood_nil hcommands hunderstood

end Mock
end CheckScript
