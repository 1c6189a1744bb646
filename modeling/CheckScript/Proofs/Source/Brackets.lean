/-
The scanner and the brackets in code.

Over the parts of a source the scanner does what `reduce` does to the word of their brackets,
and it collects their comments on the way (`scanFrom_composed`).
-/
import CheckScript.Proofs.Source.Balance
import CheckScript.Proofs.Source.Reading

namespace CheckScript
namespace Source

theorem Part.text_ne_nil {nested : Bool} {p : Part} (h : p.Sound nested) : p.text ≠ [] := by
  cases p with
  | name | number =>
    obtain ⟨c, tail, rfl, -, -⟩ := h
    exact List.cons_ne_nil c tail
  | raw => exact List.append_ne_nil_of_right_ne_nil _ (by simp)
  | nameMark => exact List.append_ne_nil_of_right_ne_nil _ (List.cons_ne_nil _ _)
  | _ => exact List.cons_ne_nil _ _

theorem map_nil_append (r : Except SourceFault (List Comment)) : r.map ([] ++ ·) = r := by
  cases r <;> rfl

/-- What is met in a part: its bracket goes to the stack, and its comment is kept. -/
theorem scanBehind_item {nested : Bool} {p : Part} (h : p.Sound nested) (line after : Nat)
    (opened : List (Char × Nat)) (rest : List Char) :
    scanBehind nested line opened ⟨p.item line, after, rest⟩ =
      (reduce opened (p.brackets line) >>= fun outer => scanFrom nested after outer rest).map
        (p.comments line ++ ·) := by
  cases p with
  | lineComment => rfl
  | blockComment => rfl
  | opening bracket =>
    show _ = (reduce opened [(bracket, line)] >>= _).map ([] ++ ·)
    rw [map_nil_append, reduce_opening (b := (bracket, line)) h]
    rfl
  | closing bracket =>
    show _ = (reduce opened [(bracket, line)] >>= _).map ([] ++ ·)
    rw [map_nil_append, reduce_closing (b := (bracket, line)) h]
    show closeBracket line bracket opened >>= _ = _
    cases closeBracket line bracket opened <;> rfl
  | _ => exact (map_nil_append _).symm

/-- Over the parts of a text the scanner takes their brackets to the stack and keeps their
comments.  From there it goes on with what is left. -/
theorem scanFrom_composed {nested : Bool} {cs rest : List Char} {parts : List Part}
    (h : Composed nested cs parts rest) (line : Nat) :
    ∃ after, ∀ opened, scanFrom nested line opened cs =
      (reduce opened (bracketsFrom line parts) >>= fun outer =>
        scanFrom nested after outer rest).map (commentsFrom line parts ++ ·) := by
  induction h generalizing line with
  | nil cs => exact ⟨line, fun opened => (map_nil_append _).symm⟩
  | @cons p ps cs rest hp _ ih =>
    obtain ⟨after, hrest⟩ := ih (line + Text.newlines p.text)
    refine ⟨after, fun opened => ?_⟩
    have hne : p.text ++ cs ≠ [] := List.append_ne_nil_of_left_ne_nil (Part.text_ne_nil hp.sound) cs
    obtain ⟨c, ds, hcs⟩ := List.exists_cons_of_ne_nil hne
    rw [hcs, scanFrom_cons, step_of_stands hp line hcs.symm]
    show scanBehind nested line opened _ = _
    rw [scanBehind_item hp.sound, bracketsFrom_cons, commentsFrom_cons, reduce_append]
    cases reduce opened (p.brackets line) with
    | error fault => rfl
    | ok outer =>
      show (scanFrom nested _ outer cs).map _ = (reduce outer _ >>= _).map _
      rw [hrest]
      cases reduce outer (bracketsFrom (line + Text.newlines p.text) ps) >>= _ with
      | error fault => rfl
      | ok found => exact congrArg Except.ok (List.append_assoc ..).symm

/-! ## Whole texts -/

/-- The parts that the scanner meets in a text: all of it, or enough to find a closing bracket
that has no match. -/
def Met (nested : Bool) (cs : List Char) (parts : List Part) : Prop :=
  ∃ rest, Composed nested cs parts rest ∧ (rest = [] ∨ ∃ fault, Misfit (bracketsFrom 1 parts) fault)

theorem brackets_composed {nested : Bool} {cs rest : List Char} {parts : List Part}
    (h : Composed nested cs parts rest) (line : Nat) :
    ∀ b ∈ bracketsFrom line parts, IsBracket b := by
  induction h generalizing line with
  | nil => nofun
  | @cons p _ _ _ hp _ ih =>
    refine List.forall_mem_append.mpr ⟨?_, ih _⟩
    cases p with
    | opening => exact fun b hb => .inl (List.mem_singleton.mp hb ▸ hp.sound)
    | closing => exact fun b hb => .inr (List.mem_singleton.mp hb ▸ hp.sound)
    | _ => nofun

theorem scanFrom_nil (nested : Bool) (line : Nat) : scanFrom nested line [] [] = .ok [] := by
  rw [scanFrom]

theorem scanFrom_open (nested : Bool) (line : Nat) (o : Char × Nat) (outer : List (Char × Nat)) :
    scanFrom nested line (o :: outer) [] = .error ⟨o.2, .unclosed o.1⟩ := by
  rw [scanFrom]

/-- The scanner finds the comments of the parts that it meets if their brackets are in balance,
and else it blames the bracket at fault. -/
theorem scanFrom_met {nested : Bool} {cs : List Char} {parts : List Part}
    (h : Met nested cs parts) :
    (Balanced (bracketsFrom 1 parts) →
      scanFrom nested 1 [] cs = .ok (commentsFrom 1 parts)) ∧
    ∀ fault, Blames (bracketsFrom 1 parts) fault → scanFrom nested 1 [] cs = .error fault := by
  obtain ⟨rest, hcomposed, hrest⟩ := h
  obtain ⟨after, hopened⟩ := scanFrom_composed hcomposed 1
  have hscan := hopened []
  have hnil {opened : List (Char × Nat)} (h : Leaves (bracketsFrom 1 parts) opened) :
      rest = [] := by
    refine hrest.resolve_right ?_
    rintro ⟨fault, hfault⟩
    exact nomatch h.reduce.symm.trans hfault.reduce
  refine ⟨fun hbalanced => ?_, fun fault hblames => ?_⟩
  · obtain rfl := hnil (.balanced hbalanced)
    rw [hscan, hbalanced.reduce]
    show (scanFrom nested after [] []).map _ = _
    rw [scanFrom_nil]
    exact congrArg Except.ok (List.append_nil _)
  · cases hblames with
    | misfit h =>
      rw [hscan, h.reduce]
      rfl
    | @unclosed o line outer h =>
      obtain rfl := hnil h
      rw [hscan, h.reduce]
      show (scanFrom nested after ((o, line) :: outer) []).map _ = _
      rw [scanFrom_open]
      rfl

theorem balanced_or_blames {word : List (Char × Nat)} (h : ∀ b ∈ word, IsBracket b) :
    Balanced word ∨ ∃ fault, Blames word fault := by
  obtain ⟨opened, hopened⟩ | ⟨fault, hfault⟩ := leaves_or_misfit h
  · cases opened with
    | nil => exact .inl (leaves_nil.mp hopened)
    | cons o outer => exact .inr ⟨_, .unclosed hopened⟩
  · exact .inr ⟨fault, .misfit hfault⟩

/-! ## Texts that end too early -/

/-- What is wrong with a comment or a literal that does not end. -/
def endless : List SourceProblem :=
  [.openComment, .openString, .openVerbatim, .openRaw, .malformedRaw, .openCharacter]

theorem literal_eq_error {line : Nat} {problem : SourceProblem} {r : Option (Nat × List Char)}
    {fault : SourceFault} (h : literal line problem r = .error fault) :
    fault.problem = problem := by
  unfold literal at h
  split at h
  · obtain rfl := Except.error.inj h
    rfl
  · cases h

theorem rawString_eq_error {line : Nat} {cs : List Char} {fault : SourceFault}
    (h : rawString line cs = .error fault) : fault.problem ∈ endless := by
  unfold rawString at h
  simp only at h
  split at h
  · rw [literal_eq_error h]
    decide
  · obtain rfl := Except.error.inj h
    show SourceProblem.malformedRaw ∈ endless
    decide

theorem identifier_eq_error {line : Nat} {c : Char} {cs : List Char} {fault : SourceFault}
    (h : identifier line c cs = .error fault) : fault.problem ∈ endless := by
  unfold identifier at h
  simp only at h
  split at h
  · split at h
    · exact rawString_eq_error h
    · split at h
      · exact rawString_eq_error h
      · split at h
        · exact rawString_eq_error h
        · cases h
    · cases h
  · cases h

/-- The scanner stops at a part only if the part does not end. -/
theorem step_eq_error {nested : Bool} {line : Nat} {c : Char} {cs : List Char}
    {fault : SourceFault} (h : step nested line c cs = .error fault) :
    fault.problem ∈ endless := by
  unfold step at h
  split at h
  · cases h
  · unfold blockComment at h
    split at h
    · obtain rfl := Except.error.inj h
      show SourceProblem.openComment ∈ endless
      decide
    · cases h
  · rw [literal_eq_error h]
    decide
  · unfold characterOrLifetime at h
    split at h
    · rw [literal_eq_error h]
      decide
    · split at h <;> cases h
    · cases h
  · rw [literal_eq_error h]
    decide
  iterate 6 cases h
  split at h
  · exact identifier_eq_error h
  · split at h <;> cases h

/-- A text is read part by part up to its end, or to a place where no part stands. -/
theorem exists_composed (nested : Bool) (cs : List Char) :
    ∃ parts rest, Composed nested cs parts rest ∧
      ∀ (p : Part) behind, rest = p.text ++ behind → ¬p.Stands nested behind := by
  induction hn : cs.length using Nat.strongRecOn generalizing cs with
  | _ n ih =>
    by_cases hpart : ∃ (p : Part) (behind : _), cs = p.text ++ behind ∧ p.Stands nested behind
    · obtain ⟨p, behind, rfl, hp⟩ := hpart
      have hlength : behind.length < n := by
        have := List.length_pos_iff.mpr (Part.text_ne_nil hp.sound)
        rw [← hn, List.length_append]
        omega
      obtain ⟨parts, rest, hcomposed, hrest⟩ := ih _ hlength behind rfl
      exact ⟨p :: parts, rest, .cons hp hcomposed, hrest⟩
    · exact ⟨[], cs, .nil cs, fun p behind hcs hp => hpart ⟨p, behind, hcs, hp⟩⟩

/-- Unless the scanner meets parts alone, it refuses a comment or a literal without an end. -/
theorem met_or_endless (nested : Bool) (cs : List Char) :
    (∃ parts, Met nested cs parts) ∨
      ∃ fault, scanFrom nested 1 [] cs = .error fault ∧ fault.problem ∈ endless := by
  obtain ⟨parts, rest, hcomposed, hstuck⟩ := exists_composed nested cs
  cases rest with
  | nil => exact .inl ⟨parts, [], hcomposed, .inl rfl⟩
  | cons c ds =>
    obtain ⟨opened, hopened⟩ | hmisfit := leaves_or_misfit (brackets_composed hcomposed 1)
    · obtain ⟨after, hscan⟩ := scanFrom_composed hcomposed 1
      rw [hscan, hopened.reduce]
      show _ ∨ ∃ fault, (scanFrom nested after opened (c :: ds)).map _ = _ ∧ _
      rw [scanFrom_cons]
      cases hstep : step nested after c ds with
      | error fault => exact .inr ⟨fault, rfl, step_eq_error hstep⟩
      | ok s =>
        obtain ⟨p, hp, hds⟩ := stands_of_step hstep
        exact absurd hp (hstuck p s.rest hds)
    · exact .inl ⟨parts, c :: ds, hcomposed, .inr hmisfit⟩

/-- The scanner succeeds on a text in which every comment and literal that it meets has an end
exactly if the brackets in code are in balance.  Else it fails at the first closing bracket that
does not match the innermost open one, or at the innermost one that is left open.  On any other
text it refuses a comment or a literal. -/
theorem comments_iff_balanced (p : Path) (text : String) :
    (∀ parts, Met (nestsComments p) text.toList parts →
      let word := bracketsFrom 1 parts
      ((∃ found, comments p text = .ok found) ↔ Balanced word) ∧
      ∀ fault, comments p text = .error fault ↔ Blames word fault) ∧
    ((∃ parts, Met (nestsComments p) text.toList parts) ∨
      ∃ fault, comments p text = .error fault ∧ fault.problem ∈ endless) := by
  refine ⟨fun parts hmet => ?_, met_or_endless _ _⟩
  intro word
  obtain ⟨hok, herror⟩ := scanFrom_met hmet
  have htotal : Balanced word ∨ ∃ fault, Blames word fault :=
    balanced_or_blames (brackets_composed hmet.choose_spec.1 1)
  refine ⟨⟨fun hfound => ?_, fun hbalanced => ⟨_, hok hbalanced⟩⟩,
    fun fault => ⟨fun hfault => ?_, herror fault⟩⟩
  · obtain ⟨found, hfound⟩ := hfound
    refine htotal.resolve_right ?_
    rintro ⟨fault, hblames⟩
    exact nomatch hfound.symm.trans (herror fault hblames)
  · obtain hbalanced | ⟨fault', hblames⟩ := htotal
    · exact nomatch hfault.symm.trans (hok hbalanced)
    · obtain rfl := Except.error.inj (hfault.symm.trans (herror fault' hblames))
      exact hblames

end Source
end CheckScript
