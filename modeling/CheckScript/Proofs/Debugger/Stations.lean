/-
Where a run of the mock debugger stops.

The mock keeps its breakpoints in the order of their lines and numbers (`place_sorted`), and looks
for the first one behind the line where it stands.  Only the least number on each line can be found
that way, so the search goes through the stations: each line once, in ascending order, with the
number of its first breakpoint (`find?_stations`).  From one stop the search leads to the next
station (`find?_behind`), a round of commands follows them one by one (`Standing.goesOn`), and a
second round starts over, since a run leaves the breakpoints as they are.
-/
import CheckScript.Proofs.Debugger.Session
import Mathlib.Data.List.Dedup
import Mathlib.Data.List.Sort

namespace CheckScript
namespace Mock

/-! ## Breakpoints in their order -/

/-- The order in which breakpoints are kept. -/
def Breakpoint.Before (b c : Breakpoint) : Prop :=
  b.line < c.line ∨ b.line = c.line ∧ b.number < c.number

open Breakpoint (Before)

theorem Breakpoint.Before.trans {b c d : Breakpoint} (h : Before b c) (h' : Before c d) :
    Before b d := by
  unfold Before at *
  omega

theorem Breakpoint.Before.irrefl (b : Breakpoint) : ¬Before b b := by
  unfold Before
  omega

theorem mem_place {b c : Breakpoint} {bs : List Breakpoint} :
    c ∈ place b bs ↔ c = b ∨ c ∈ bs := by
  induction bs with
  | nil => simp [place]
  | cons d bs ih =>
    rw [place]
    split
    · exact List.mem_cons
    · rw [List.mem_cons, ih, List.mem_cons]
      exact or_left_comm

/-- A breakpoint with a new number is put in its place. -/
theorem place_sorted {b : Breakpoint} {bs : List Breakpoint} (h : bs.Pairwise Before)
    (hnew : ∀ c ∈ bs, c.number < b.number) : (place b bs).Pairwise Before := by
  induction bs with
  | nil => exact List.pairwise_singleton _ _
  | cons c bs ih =>
    obtain ⟨hc, hbs⟩ := List.pairwise_cons.mp h
    obtain ⟨hnumber, hnumbers⟩ := List.forall_mem_cons.mp hnew
    rw [place]
    split
    · rename_i hbefore
      refine List.pairwise_cons.mpr ⟨fun d hd => ?_, h⟩
      rcases List.mem_cons.mp hd with rfl | hmem
      · exact hbefore
      · exact Breakpoint.Before.trans hbefore (hc d hmem)
    · rename_i hafter
      refine List.pairwise_cons.mpr ⟨fun d hd => ?_, ih hbs hnumbers⟩
      rcases mem_place.mp hd with rfl | hmem
      · unfold Before
        omega
      · exact hc d hmem

/-- What is found in a list in order comes before all else that could have been found. -/
theorem find?_sorted {bs : List Breakpoint} (h : bs.Pairwise Before) (p : Breakpoint → Bool)
    (b : Breakpoint) :
    bs.find? p = some b ↔ b ∈ bs ∧ p b = true ∧ ∀ c ∈ bs, p c = true → c = b ∨ Before b c := by
  induction bs with
  | nil => simp
  | cons d bs ih =>
    obtain ⟨hd, hbs⟩ := List.pairwise_cons.mp h
    by_cases hp : p d = true
    · rw [List.find?_cons_of_pos hp]
      constructor
      · intro heq
        obtain rfl := Option.some.inj heq
        exact ⟨List.mem_cons_self, hp, fun c hc _ => (List.mem_cons.mp hc).imp id (hd c)⟩
      · rintro ⟨hmem, -, hleast⟩
        rcases List.mem_cons.mp hmem with rfl | hrest
        · rfl
        · rcases hleast d List.mem_cons_self hp with rfl | hback
          · rfl
          · exact absurd ((hd b hrest).trans hback) (Breakpoint.Before.irrefl d)
    · rw [List.find?_cons_of_neg hp, ih hbs]
      constructor
      · rintro ⟨hmem, hb, hleast⟩
        refine ⟨List.mem_cons_of_mem _ hmem, hb, fun c hc hpc => ?_⟩
        rcases List.mem_cons.mp hc with rfl | hrest
        · exact absurd hpc hp
        · exact hleast c hrest hpc
      · rintro ⟨hmem, hb, hleast⟩
        rcases List.mem_cons.mp hmem with rfl | hrest
        · exact absurd hb hp
        · exact ⟨hrest, hb, fun c hc => hleast c (List.mem_cons_of_mem _ hc)⟩

/-! ## Stations -/

/-- The stops of a run, for breakpoints put in on these lines: each line once, in ascending order,
with the number of the first breakpoint there.  Numbers are given from one on. -/
def stations (placed : List Nat) : List Breakpoint :=
  (placed.dedup.insertionSort (· ≤ ·)).map fun line => ⟨line, placed.idxOf line + 1⟩

example : stations [7, 3, 7] = [⟨3, 2⟩, ⟨7, 1⟩] := by decide

/-- The breakpoints that were put in on these lines, with their numbers. -/
def Holds (placed : List Nat) (bs : List Breakpoint) : Prop :=
  ∀ b, b ∈ bs ↔ ∃ i, placed[i]? = some b.line ∧ b.number = i + 1

variable {placed : List Nat} {bs : List Breakpoint}

theorem mem_stations {b : Breakpoint} :
    b ∈ stations placed ↔ b.line ∈ placed ∧ b.number = placed.idxOf b.line + 1 := by
  rw [stations, List.mem_map]
  constructor
  · rintro ⟨line, hline, rfl⟩
    exact ⟨List.mem_dedup.mp ((List.mem_insertionSort _).mp hline), rfl⟩
  · rintro ⟨hline, hnumber⟩
    refine ⟨b.line, (List.mem_insertionSort _).mpr (List.mem_dedup.mpr hline), ?_⟩
    rw [← hnumber]

theorem stations_ascending (placed : List Nat) :
    (stations placed).Pairwise fun b c => b.line < c.line := by
  have hsorted := List.pairwise_insertionSort (· ≤ ·) placed.dedup
  have hnodup : (placed.dedup.insertionSort (· ≤ ·)).Nodup :=
    (List.perm_insertionSort _ _).nodup_iff.mpr placed.nodup_dedup
  exact List.pairwise_map.mpr ((hsorted.and hnodup).imp fun h => Nat.lt_of_le_of_ne h.1 h.2)

theorem mem_of_mem_stations (h : Holds placed bs) {b : Breakpoint} (hb : b ∈ stations placed) :
    b ∈ bs := by
  obtain ⟨hline, hnumber⟩ := mem_stations.mp hb
  exact (h b).mpr ⟨_, List.getElem?_idxOf hline, hnumber⟩

/-- Each breakpoint has a station on its line, and it is that or comes behind it. -/
theorem Holds.station (h : Holds placed bs) {b : Breakpoint} (hb : b ∈ bs) :
    ∃ c ∈ stations placed, c.line = b.line ∧ (c = b ∨ Before c b) := by
  obtain ⟨i, hi, hnumber⟩ := (h b).mp hb
  have hmem : b.line ∈ placed := List.mem_of_getElem? hi
  have hle : placed.idxOf b.line ≤ i := by
    have htake : (placed.take (i + 1))[i]? = some b.line := by
      rwa [List.getElem?_take_of_lt (Nat.lt_succ_self i)]
    exact Nat.lt_succ_iff.mp ((List.mem_take_iff_idxOf_lt hmem).mp (List.mem_of_getElem? htake))
  refine ⟨⟨b.line, placed.idxOf b.line + 1⟩, mem_stations.mpr ⟨hmem, rfl⟩, rfl, ?_⟩
  rcases Nat.lt_or_eq_of_le hle with hlt | heq
  · exact .inr (.inr ⟨rfl, by rw [hnumber]; exact Nat.succ_lt_succ hlt⟩)
  · left
    rw [heq, ← hnumber]

/-- A search for a line finds no other breakpoints than the stations. -/
theorem find?_stations (hsorted : bs.Pairwise Before) (h : Holds placed bs) (first : Nat) :
    bs.find? (fun b => first ≤ b.line) = (stations placed).find? (fun b => first ≤ b.line) := by
  have hstations : (stations placed).Pairwise Before := (stations_ascending placed).imp .inl
  refine Option.ext fun b => ?_
  rw [find?_sorted hsorted, find?_sorted hstations]
  constructor
  · rintro ⟨hmem, hfirst, hleast⟩
    obtain ⟨c, hc, hline, hcb⟩ := h.station hmem
    -- The station on the line of `b` could have been found too, so `b` is that station.
    have hbc : c = b := by
      rcases hleast c (mem_of_mem_stations h hc) (by rwa [hline]) with heq | hback
      · exact heq
      · rcases hcb with heq | hforth
        · exact heq
        · exact absurd (hback.trans hforth) (Breakpoint.Before.irrefl b)
    exact ⟨hbc ▸ hc, hfirst, fun d hd => hleast d (mem_of_mem_stations h hd)⟩
  · rintro ⟨hmem, hfirst, hleast⟩
    refine ⟨mem_of_mem_stations h hmem, hfirst, fun d hd hline => ?_⟩
    obtain ⟨c, hc, hcd, hbefore⟩ := h.station hd
    rcases hleast c hc (by rwa [hcd]) with rfl | hbc
    · exact hbefore.imp Eq.symm id
    · rcases hbefore with rfl | hcd
      · exact .inr hbc
      · exact .inr (hbc.trans hcd)

theorem find?_first (bs : List Breakpoint) : bs.find? (fun b => 0 ≤ b.line) = bs[0]? := by
  cases bs with
  | nil => rfl
  | cons b bs => exact List.find?_cons_of_pos (by simp)

/-- Behind one stop follows the next. -/
theorem find?_behind (h : bs.Pairwise fun b c => b.line < c.line) {i : Nat} {b : Breakpoint}
    (hb : bs[i]? = some b) : bs.find? (fun c => b.line + 1 ≤ c.line) = bs[i + 1]? := by
  induction bs generalizing i with
  | nil => cases hb
  | cons c bs ih =>
    obtain ⟨hc, hbs⟩ := List.pairwise_cons.mp h
    cases i with
    | zero =>
      obtain rfl : c = b := Option.some.inj hb
      rw [List.find?_cons_of_neg (by simp)]
      cases bs with
      | nil => rfl
      | cons d bs =>
        have hd : c.line + 1 ≤ d.line := hc d List.mem_cons_self
        exact List.find?_cons_of_pos (decide_eq_true hd)
    | succ i =>
      have hrest : bs[i]? = some b := hb
      have hlt := hc b (List.mem_of_getElem? hrest)
      rw [List.find?_cons_of_neg (by simp; omega)]
      exact ih hbs hrest

/-! ## Breakpoints put in -/

/-- The digits in front of a line, which its result repeats. -/
def digitsOf (line : String) : List Char := (Text.trimChars line.toList).takeWhile Text.isDigit

theorem Commands.digits_eq {line name : String} {digits args : List Char}
    (h : Commands line digits name args) : digits = digitsOf line := by
  obtain ⟨rest, hparts, -⟩ := h
  exact hparts.unique.1

/-- The mock behind lines that put breakpoints in, one on each of these lines of the program. -/
structure Placed (lines : List String) (placed : List Nat) (s : State) : Prop where
  reading : s.status = .reading
  count : s.inserted = placed.length
  words : placed.length < Nat.pow 2 32
  sorted : s.breakpoints.Pairwise Before
  holds : Holds placed s.breakpoints
  file : ∃ file, s.file = String.ofList file ∧ (lines = [] ∨ Latest lines file)

theorem Placed.start : Placed [] [] .start where
  reading := rfl
  count := rfl
  words := by decide
  sorted := .nil
  holds b := by simp [State.start]
  file := ⟨[], rfl, .inl rfl⟩

theorem Holds.concat (h : Holds placed bs) (n : Nat) :
    Holds (placed ++ [n]) (place ⟨n, placed.length + 1⟩ bs) := by
  intro b
  rw [mem_place, h b]
  constructor
  · rintro (rfl | ⟨i, hi, hnumber⟩)
    · exact ⟨placed.length, List.getElem?_concat_length, rfl⟩
    · exact ⟨i, List.getElem?_append_left (List.getElem?_eq_some_iff.mp hi).1 ▸ hi, hnumber⟩
  · rintro ⟨i, hi, hnumber⟩
    rcases Nat.lt_or_ge i placed.length with hlt | hge
    · exact .inr ⟨i, List.getElem?_append_left hlt ▸ hi, hnumber⟩
    · left
      have hlast : i = placed.length := by
        have hlt := (List.getElem?_eq_some_iff.mp hi).1
        rw [List.length_append, List.length_singleton] at hlt
        omega
      subst hlast
      rw [List.getElem?_concat_length] at hi
      cases b with
      | mk line number =>
        obtain rfl : n = line := Option.some.inj hi
        obtain rfl : number = placed.length + 1 := hnumber
        rfl

theorem promptAfter_of_reading {s : State} (h : s.status = .reading) :
    promptAfter s = [.prompt ""] := if_pos h

theorem Placed.concat {lines : List String} {line : String} {n : Nat} {s s' : State}
    {rs : List Record} (h : Placed lines placed s) (hline : Puts line n)
    (hears : Hears line s s' rs) (hreading : s'.status = .reading) :
    Placed (lines ++ [line]) (placed ++ [n]) s' ∧
      ∃ file, Inserts line file ∧
        rs = [putRecord (digitsOf line) (placed.length + 1) (String.ofList file) n,
          .prompt ""] := by
  obtain ⟨-, digits, args, file, hcommands, hlocates⟩ := hline
  have hfits : Fits line s := (hears.reading hreading).2
  have hcount : s.inserted + 1 < Nat.pow 2 32 :=
    Decidable.not_not.mp fun hover =>
      hfits _ _ _ hcommands (.number (location?_eq_some.mpr hlocates) hover)
  obtain ⟨rs', hcarries, hrs⟩ := hears.carries h.reading hfits hcommands
  obtain ⟨rfl, rfl⟩ := hcarries.puts rfl hlocates
  have hnew : ∀ c ∈ s.breakpoints, c.number < s.inserted + 1 := by
    intro c hc
    obtain ⟨i, hi, hnumber⟩ := (h.holds c).mp hc
    have hlt := (List.getElem?_eq_some_iff.mp hi).1
    rw [hnumber, h.count]
    omega
  have hinserts : Inserts line file := ⟨digits, args, n, hcommands, hlocates⟩
  have hnext : Placed (lines ++ [line]) (placed ++ [n])
      { s with inserted := s.inserted + 1,
               breakpoints := place ⟨n, s.inserted + 1⟩ s.breakpoints,
               file := String.ofList file } := by
    refine ⟨h.reading, ?_, ?_, place_sorted h.sorted hnew, ?_, file, rfl, .inr ?_⟩
    · rw [h.count, List.length_append, List.length_singleton]
    · rwa [List.length_append, List.length_singleton, ← h.count]
    · rw [h.count]
      exact h.holds.concat n
    · exact latest_concat hinserts
  refine ⟨hnext, file, hinserts, ?_⟩
  rw [hrs, promptAfter_of_reading hnext.reading, hcommands.digits_eq, h.count]
  rfl

theorem newlines_of_puts {lines : List String} (h : List.Forall₂ Puts lines placed) :
    ∀ line ∈ lines, '\n' ∉ line.toList := by
  induction h with
  | nil => exact List.forall_mem_nil _
  | cons hline _ ih => exact List.forall_mem_cons.mpr ⟨hline.1, ih⟩

theorem Placed.append {before lines : List String} {earlier : List Nat}
    (h : Placed before earlier (after before)) (hlines : List.Forall₂ Puts lines placed)
    (hreading : (after (before ++ lines)).status = .reading) :
    Placed (before ++ lines) (earlier ++ placed) (after (before ++ lines)) := by
  induction hlines generalizing before earlier with
  | nil => rwa [List.append_nil, List.append_nil]
  | @cons line n lines placed hline hlines ih =>
    obtain ⟨rs, hhears, -⟩ := after_hears hline.1 before
    rw [List.append_cons earlier]
    rw [List.append_cons before] at hreading ⊢
    have hfirst := reading_of_append (newlines_of_puts hlines) hreading
    exact ih (h.concat hline hhears hfirst).1 hreading

/-- Lines that put breakpoints in one after another, each with success. -/
theorem after_placed {lines : List String} (h : List.Forall₂ Puts lines placed)
    (hreading : (after lines).status = .reading) : Placed lines placed (after lines) :=
  Placed.start.append h hreading

/-- There is a number for one more breakpoint as long as the number is a word. -/
theorem Placed.reads {lines : List String} {line : String} {n : Nat} {s s' : State}
    {rs : List Record} (h : Placed lines placed s) (hline : Puts line n)
    (hears : Hears line s s' rs) (hcount : placed.length + 1 < Nat.pow 2 32) :
    s'.status = .reading := by
  have hexits := hline.orders.not_exits (by decide)
  obtain ⟨-, digits, args, file, hcommands, -⟩ := hline
  refine (hears.status_eq hexits fun digits' name args' hcommands' hover => ?_).trans h.reading
  obtain ⟨-, rfl, -⟩ := hcommands.unique hcommands'
  exact hover.of_insert rfl (h.count ▸ hcount)

theorem Placed.reads_append {before lines : List String} {earlier : List Nat}
    (h : Placed before earlier (after before)) (hlines : List.Forall₂ Puts lines placed)
    (hcount : (earlier ++ placed).length < Nat.pow 2 32) :
    (after (before ++ lines)).status = .reading := by
  induction hlines generalizing before earlier with
  | nil =>
    rw [List.append_nil]
    exact h.reading
  | @cons line n lines placed hline _ ih =>
    obtain ⟨rs, hhears, -⟩ := after_hears hline.1 before
    rw [List.append_cons earlier] at hcount
    rw [List.append_cons before]
    have hfirst : earlier.length + 1 < Nat.pow 2 32 := by
      rw [List.length_append, List.length_append, List.length_singleton] at hcount
      omega
    exact ih (h.concat hline hhears (h.reads hline hhears hfirst)).1 hcount

/-- All breakpoints are put in with success exactly if there are words enough for their numbers. -/
theorem reading_iff_count {lines : List String} (h : List.Forall₂ Puts lines placed) :
    (after lines).status = .reading ↔ placed.length < Nat.pow 2 32 :=
  ⟨fun hreading => (after_placed h hreading).words, Placed.start.reads_append h⟩

/-! ## Rounds -/

def hitRecord (file : String) (b : Breakpoint) : Record :=
  execRecord "stopped"
    [("reason", .const "breakpoint-hit"), ("disp", .const "keep"),
      ("bkptno", .const (toString b.number)),
      ("frame", .tuple [("func", .const "main"), ("file", .const file),
        ("line", .const (toString b.line))]),
      ("thread-id", .const "1")]

def endRecord : Record := execRecord "stopped" [("reason", .const "exited-normally")]

/-- How the command with number `i` in a round is answered: with the stop at the station with that
number, behind the last station with the end of the program, and from then on with a refusal. -/
def reply (placed : List Nat) (file : String) (digits : List Char) (i : Nat) : List Record :=
  match (stations placed)[i]? with
  | some b => runRecords digits (hitRecord file b) ++ [.prompt ""]
  | none =>
    if i = (stations placed).length then runRecords digits endRecord ++ [.prompt ""]
    else [errorRecord digits "The program is not being run.", .prompt ""]

/-- A command that starts the program, and commands to go on. -/
inductive Round : List String → Prop where
  | mk {line : String} {onward : List String} (hline : Orders line "exec-run")
      (honward : ∀ l ∈ onward, Orders l "exec-continue") : Round (line :: onward)

/-- A mock that finds the stations for these lines, whether the program runs or not. -/
structure Ready (placed : List Nat) (file : String) (s : State) : Prop where
  reading : s.status = .reading
  file : s.file = file
  search : ∀ first, s.breakpoints.find? (fun b => first ≤ b.line) =
    (stations placed).find? (fun b => first ≤ b.line)

/-- The program stands at the station with number `i`, or at none if there are not so many. -/
structure Standing (placed : List Nat) (file : String) (i : Nat) (s : State) : Prop
    extends Ready placed file s where
  stopped : s.stoppedAt = (stations placed)[i]?.map (·.line)

variable {file : String} {line : String} {s s' : State} {rs : List Record} {i : Nat}

theorem Placed.ready {lines : List String} (h : Placed lines placed s) :
    Ready placed s.file s :=
  ⟨h.reading, rfl, find?_stations h.sorted h.holds⟩

/-- A run goes to the station that the search from its first line finds. -/
theorem Ready.stops {first : Nat} {stop : Record} (h : Ready placed file s)
    (hstops : Stops first s s' stop) (hi : i ≤ (stations placed).length)
    (hfind : (stations placed).find? (fun b => first ≤ b.line) = (stations placed)[i]?)
    (digits : List Char) :
    Standing placed file i s' ∧
      runRecords digits stop ++ [.prompt ""] = reply placed file digits i := by
  cases hstops with
  | @hit b hhit =>
    rw [h.search, hfind] at hhit
    refine ⟨⟨⟨h.reading, h.file, h.search⟩, ?_⟩, ?_⟩
    · rw [hhit]
      rfl
    · rw [reply, hhit, ← h.file]
      rfl
  | ended hended =>
    rw [h.search, hfind] at hended
    have hlast : i = (stations placed).length :=
      Nat.le_antisymm hi (List.getElem?_eq_none_iff.mp hended)
    refine ⟨⟨⟨h.reading, h.file, h.search⟩, ?_⟩, ?_⟩
    · rw [hended]
      rfl
    · rw [reply, hended]
      exact (if_pos hlast).symm

theorem Carries.resumes {digits args : List Char} {name : String}
    (h : Carries digits args s name s' rs) (hname : name = "exec-continue") :
    s.stoppedAt = none ∧ s' = s ∧ rs = [errorRecord digits "The program is not being run."] ∨
      ∃ line stop, s.stoppedAt = some line ∧ Stops (line + 1) s s' stop ∧
        rs = runRecords digits stop := by
  cases h with
  | notRunning h => exact .inl ⟨h, rfl, rfl⟩
  | resumed h _ hstop => exact .inr ⟨_, _, h, hstop, rfl⟩
  | unknown h => exact absurd (hname ▸ by decide) h
  | inserted | misplaced | listed | ran | noStack | framed | echoed | exited =>
    exact absurd hname (by decide)

theorem Ready.starts (h : Ready placed file s) (hline : Orders line "exec-run")
    (hears : Hears line s s' rs) :
    Standing placed file 0 s' ∧ rs = reply placed file (digitsOf line) 0 := by
  obtain ⟨-, digits, args, hcommands⟩ := hline
  obtain ⟨rs', hcarries, rfl⟩ :=
    hears.carries h.reading (fits_of_name hcommands (by decide)) hcommands
  obtain ⟨stop, hstops, rfl⟩ := hcarries.runs rfl
  rw [← hcommands.digits_eq]
  have hready : Ready placed file { s with stoppedAt := none } := ⟨h.reading, h.file, h.search⟩
  obtain ⟨hstanding, hreply⟩ := hready.stops hstops (Nat.zero_le _) (find?_first _) digits
  rw [promptAfter_of_reading hstanding.reading]
  exact ⟨hstanding, hreply⟩

/-- The line behind each station is a word. -/
theorem Standing.fits (hsmall : ∀ n ∈ placed, n + 1 < Nat.pow 2 32) (h : Standing placed file i s)
    (hline : Orders line "exec-continue") : Fits line s := by
  obtain ⟨-, digits, args, hcommands⟩ := hline
  intro digits' name args' hline' hover
  obtain ⟨-, rfl, -⟩ := hcommands.unique hline'
  obtain ⟨n, hstopped, hover⟩ := hover.of_continue rfl
  rw [h.stopped] at hstopped
  obtain ⟨b, hb, rfl⟩ := Option.map_eq_some_iff.mp hstopped
  exact hover (hsmall _ (mem_stations.mp (List.mem_of_getElem? hb)).1)

/-- From one station a run goes on to the next. -/
theorem Standing.goesOn (hsmall : ∀ n ∈ placed, n + 1 < Nat.pow 2 32) (h : Standing placed file i s)
    (hline : Orders line "exec-continue") (hears : Hears line s s' rs) :
    Standing placed file (i + 1) s' ∧ rs = reply placed file (digitsOf line) (i + 1) := by
  have hfits := h.fits hsmall hline
  obtain ⟨-, digits, args, hcommands⟩ := hline
  obtain ⟨rs', hcarries, rfl⟩ := hears.carries h.reading hfits hcommands
  rw [← hcommands.digits_eq]
  rcases hcarries.resumes rfl with ⟨hnone, rfl, rfl⟩ | ⟨n, stop, hsome, hstops, rfl⟩
  -- The program stands nowhere only behind the last station, and stays there.
  · have hpast : (stations placed)[i]? = none := by
      rw [h.stopped] at hnone
      exact Option.map_eq_none_iff.mp hnone
    have hlength := List.getElem?_eq_none_iff.mp hpast
    have hnext : (stations placed)[i + 1]? = none :=
      List.getElem?_eq_none_iff.mpr (Nat.le_succ_of_le hlength)
    refine ⟨⟨h.toReady, ?_⟩, ?_⟩
    · rw [hnone, hnext]
      rfl
    · rw [promptAfter_of_reading h.reading, reply, hnext, if_neg (by omega)]
      rfl
  · rw [h.stopped] at hsome
    obtain ⟨b, hb, rfl⟩ := Option.map_eq_some_iff.mp hsome
    have hlt := (List.getElem?_eq_some_iff.mp hb).1
    obtain ⟨hstanding, hreply⟩ :=
      h.stops hstops hlt (find?_behind (stations_ascending placed) hb) digits
    rw [promptAfter_of_reading hstanding.reading]
    exact ⟨hstanding, hreply⟩

/-- A round goes through the stations from the first one on, and its commands are answered so. -/
theorem Ready.follows (hsmall : ∀ n ∈ placed, n + 1 < Nat.pow 2 32) {before lines : List String}
    (h : Ready placed file (after before)) (hround : Round lines) (hline : lines[i]? = some line) :
    Standing placed file i (after (before ++ lines.take (i + 1))) ∧
      List.Forall₂ Reads
        (Debugger.mock.output (.input line :: inputs (before ++ lines.take i)))
        (reply placed file (digitsOf line) i) := by
  induction i generalizing line with
  | zero =>
    obtain ⟨hstart, -⟩ := hround
    obtain rfl := Option.some.inj hline
    obtain ⟨rs, hhears, hreads⟩ := after_hears hstart.1 before
    obtain ⟨hstanding, rfl⟩ := h.starts hstart hhears
    rw [List.take_zero, List.append_nil]
    exact ⟨hstanding, hreads⟩
  | succ i ih =>
    have hlt : i < lines.length := Nat.lt_of_succ_lt (List.getElem?_eq_some_iff.mp hline).1
    obtain ⟨hstanding, -⟩ := ih (List.getElem?_eq_getElem hlt)
    have honward : Orders line "exec-continue" := by
      obtain ⟨-, honward⟩ := hround
      exact honward line (List.mem_of_getElem? hline)
    obtain ⟨rs, hhears, hreads⟩ := after_hears honward.1 (before ++ lines.take (i + 1))
    obtain ⟨hnext, rfl⟩ := hstanding.goesOn hsmall honward hhears
    have htake : lines.take (i + 1 + 1) = lines.take (i + 1) ++ [line] := by
      rw [List.take_add_one, hline]
      rfl
    rw [htake, ← List.append_assoc]
    exact ⟨hnext, hreads⟩

/-- Rounds leave the mock ready for the next one. -/
theorem Ready.rounds (hsmall : ∀ n ∈ placed, n + 1 < Nat.pow 2 32) {before : List String}
    (h : Ready placed file (after before)) {rounds : List (List String)}
    (hrounds : ∀ lines ∈ rounds, Round lines) :
    Ready placed file (after (before ++ rounds.flatten)) := by
  induction rounds generalizing before with
  | nil => rwa [List.flatten_nil, List.append_nil]
  | cons lines rounds ih =>
    obtain ⟨hround, hmore⟩ := List.forall_mem_cons.mp hrounds
    have hlength : 0 < lines.length := by
      cases hround
      exact Nat.zero_lt_succ _
    have hlast : lines.length - 1 < lines.length := Nat.sub_one_lt_of_lt hlength
    obtain ⟨hstanding, -⟩ := h.follows hsmall hround (List.getElem?_eq_getElem hlast)
    rw [Nat.sub_add_cancel hlength, List.take_length] at hstanding
    rw [List.flatten_cons, ← List.append_assoc]
    exact ih hstanding.toReady hmore

/-- Breakpoints that are put in with success are numbered in turn.  Each run then stops once on each
line that has one, in ascending order, at the breakpoint with the least number there; it ends, and
cannot go on before it is started again. -/
theorem runs_in_order {insertions : List String} (hinsertions : List.Forall₂ Puts insertions placed)
    (hsuccess : (after insertions).status = .reading) (hsmall : ∀ n ∈ placed, n + 1 < Nat.pow 2 32) :
    (∀ i line n, insertions[i]? = some line → placed[i]? = some n →
      ∃ file, Inserts line file ∧ List.Forall₂ Reads
        (Debugger.mock.output (.input line :: inputs (insertions.take i)))
        [putRecord (digitsOf line) (i + 1) (String.ofList file) n, .prompt ""]) ∧
    ∃ file : List Char, (insertions = [] ∨ Latest insertions file) ∧
      ∀ (rounds : List (List String)) (round : List String), (∀ r ∈ rounds, Round r) →
        Round round → ∀ i line, round[i]? = some line →
          List.Forall₂ Reads
            (Debugger.mock.output
              (.input line :: inputs (insertions ++ rounds.flatten ++ round.take i)))
            (reply placed (String.ofList file) (digitsOf line) i) := by
  have hreading : ∀ before, before <+: insertions → (after before).status = .reading := by
    rintro before ⟨rest, rfl⟩
    exact reading_of_append
      (fun l hl => newlines_of_puts hinsertions l (List.mem_append_right _ hl)) hsuccess
  constructor
  · intro i line n hline hn
    have hlt := (List.getElem?_eq_some_iff.mp hn).1
    have hputs : Puts line n := by
      obtain ⟨hi, rfl⟩ := List.getElem?_eq_some_iff.mp hline
      obtain ⟨hi', rfl⟩ := List.getElem?_eq_some_iff.mp hn
      exact hinsertions.get hi hi'
    obtain ⟨rs, hhears, hreads⟩ := after_hears hputs.1 (insertions.take i)
    have hlength : (placed.take i).length = i := List.length_take_of_le hlt.le
    have hnext : insertions.take i ++ [line] <+: insertions := by
      obtain ⟨hi, rfl⟩ := List.getElem?_eq_some_iff.mp hline
      rw [List.take_append_getElem hi]
      exact List.take_prefix _ _
    have hbefore := (List.prefix_append _ _).trans hnext
    obtain ⟨-, file, hinserts, rfl⟩ :=
      (after_placed (List.forall₂_take i hinsertions) (hreading _ hbefore)).concat hputs hhears
        (hreading _ hnext)
    rw [hlength] at hreads
    exact ⟨file, hinserts, hreads⟩
  · have hplaced := after_placed hinsertions hsuccess
    obtain ⟨file, hfile, hlatest⟩ := hplaced.file
    refine ⟨file, hlatest, fun rounds round hrounds hround i line hline => ?_⟩
    have hready := hplaced.ready
    rw [hfile] at hready
    exact ((hready.rounds hsmall hrounds).follows hsmall hround hline).2

/-- Two breakpoints are on one line, and the lines do not come in their order. -/
def insertions : List String :=
  ["1-break-insert a.rs:7", "-break-insert b:c.rs:3", " -break-insert a.rs:7 "]

theorem insertions_put : List.Forall₂ Puts insertions [7, 3, 7] := by
  have hlocation : location? (Text.trimChars "a.rs:7".toList) = some ("a.rs".toList, 7) := by decide
  have hcolons : location? (Text.trimChars "b:c.rs:3".toList) = some ("b:c.rs".toList, 3) := by
    decide
  exact .cons (puts_of_location (by decide) (by decide) hlocation)
    (.cons (puts_of_location (by decide) (by decide) hcolons)
      (.cons (puts_of_location (by decide) (by decide) hlocation) .nil))

/-- In the second round the program goes on to its second stop. -/
theorem runs_in_order_insertions :
    List.Forall₂ Puts insertions [7, 3, 7] ∧ (after insertions).status = .reading ∧
      (∀ n ∈ [7, 3, 7], n + 1 < Nat.pow 2 32) ∧
      ∃ file, Latest insertions file ∧
        List.Forall₂ Reads
          (Debugger.mock.output (.input "5-exec-continue" ::
            inputs (insertions ++ [["-exec-run", "-exec-continue"]].flatten ++ ["-exec-run"])))
          (runRecords ['5'] (hitRecord (String.ofList file) ⟨7, 1⟩) ++ [.prompt ""]) := by
  have hrun : Orders "-exec-run" "exec-run" := orders_bare (by decide) (by decide) (by decide)
  have hcontinue : Orders "-exec-continue" "exec-continue" :=
    orders_bare (by decide) (by decide) (by decide)
  have hagain : Orders "5-exec-continue" "exec-continue" :=
    orders_bare (by decide) (by decide) (by decide)
  have hsmall : ∀ n ∈ [7, 3, 7], n + 1 < Nat.pow 2 32 := by decide
  have hsuccess : (after insertions).status = .reading :=
    (reading_iff_count insertions_put).mpr (by decide)
  obtain ⟨-, file, hlatest, hanswers⟩ := runs_in_order insertions_put hsuccess hsmall
  have hstations : stations [7, 3, 7] = [⟨3, 2⟩, ⟨7, 1⟩] := by decide
  refine ⟨insertions_put, hsuccess, hsmall, file, hlatest.resolve_left (by decide), ?_⟩
  have hreply := hanswers [["-exec-run", "-exec-continue"]] ["-exec-run", "5-exec-continue"]
    (List.forall_mem_singleton.mpr (.mk hrun (List.forall_mem_singleton.mpr hcontinue)))
    (.mk hrun (List.forall_mem_singleton.mpr hagain)) 1 "5-exec-continue" rfl
  rw [reply, hstations] at hreply
  exact hreply

end Mock
end CheckScript
