/-
The scanner reads a source part by part.

Where a part stands, a step of the scanner reads it and nothing more (`step_of_stands`), and
whatever a step reads is a part (`stands_of_step`).  So the scanner stops inside a source only
where no part stands.
-/
import CheckScript.Proofs.Source.Inside

namespace CheckScript
namespace Source

open Text (Ends IsRun)

/-! ## Literals -/

/-- A literal that ends in front of `rest` is passed over. -/
def Passed (r : Except SourceFault Step) (rest : List Char) : Prop :=
  ∃ after, r = .ok ⟨.code, after, rest⟩

theorem literal_passed {line : Nat} {problem : SourceProblem} {r : Option (Nat × List Char)}
    {rest : List Char} (h : ∃ after, r = some (after, rest)) :
    Passed (literal line problem r) rest := by
  obtain ⟨after, rfl⟩ := h
  exact ⟨after, rfl⟩

theorem literal_eq_ok {line : Nat} {problem : SourceProblem} {r : Option (Nat × List Char)}
    {s : Step} (h : literal line problem r = .ok s) : r = some (s.line, s.rest) := by
  unfold literal at h
  split at h
  · cases h
  · obtain rfl := Except.ok.inj h
    rfl

theorem rawString_passed {hashes : Nat} {body : List Char} (h : ¬rawEnd hashes <:+: body)
    (line : Nat) (rest : List Char) :
    Passed (rawString line (hashSigns hashes ++ '"' :: (body ++ (rawEnd hashes ++ rest))))
      rest := by
  have hall : ∀ c ∈ hashSigns hashes, (c == '#') = true := fun c hc =>
    beq_iff_eq.mpr (List.eq_of_mem_replicate hc)
  have hends : Ends (· == '#') ('"' :: (body ++ (rawEnd hashes ++ rest))) := Text.ends_cons rfl
  unfold rawString
  simp only [Text.takeWhile_run hall hends]
  rw [hashSigns, List.length_replicate, List.drop_left' List.length_replicate]
  exact literal_passed (afterRaw_body h line rest)

theorem rawString_eq_ok {line : Nat} {cs : List Char} {s : Step} (h : rawString line cs = .ok s) :
    ∃ hashes body, ¬rawEnd hashes <:+: body ∧
      cs = hashSigns hashes ++ '"' :: (body ++ (rawEnd hashes ++ s.rest)) := by
  unfold rawString at h
  simp only [drop_hashes] at h
  split at h
  · rename_i behind hbehind
    obtain ⟨body, hbody, rfl⟩ := afterRaw_eq_some (literal_eq_ok h)
    refine ⟨_, body, hbody, ?_⟩
    rw [← hbehind, hashSigns, ← List.eq_replicate_of_mem fun c hc => ?_,
      List.takeWhile_append_dropWhile]
    exact beq_iff_eq.mp (List.all_eq_true.mp List.all_takeWhile c hc)
  · cases h

theorem characterOrLifetime_escaped {body : List Char} (hhead : body.head? = some '\\')
    (hbody : Escaped InCharacter body) (line : Nat) (rest : List Char) :
    Passed (characterOrLifetime line (body ++ '\'' :: rest)) rest := by
  obtain ⟨tail, rfl⟩ := List.head?_eq_some_iff.mp hhead
  exact literal_passed (hbody.afterCharacter line rest)

theorem characterOrLifetime_plain {c : Char} (hslash : c ≠ '\\') (hline : c ≠ '\n') (line : Nat)
    (rest : List Char) : Passed (characterOrLifetime line (c :: '\'' :: rest)) rest := by
  unfold characterOrLifetime
  split
  · rename_i h
    exact absurd (List.cons.inj h).1 hslash
  · rename_i h
    obtain ⟨rfl, htail⟩ := List.cons.inj h
    obtain ⟨-, rfl⟩ := List.cons.inj htail
    rw [if_neg hline]
    exact ⟨line, rfl⟩
  · rename_i h
    exact absurd rfl (h c rest)

theorem characterOrLifetime_quote {rest : List Char} (hslash : rest.head? ≠ some '\\')
    (hquote : rest.tail.head? = some '\'' → rest.head? = some '\n') (line : Nat) :
    Passed (characterOrLifetime line rest) rest := by
  refine ⟨line, ?_⟩
  unfold characterOrLifetime
  split
  · exact absurd rfl hslash
  · rw [if_pos (Option.some.inj (hquote rfl))]
  · rfl

/-- What begins with a quote is a character literal, or the quote stands for itself. -/
theorem characterOrLifetime_part {nested : Bool} {line : Nat} {cs : List Char} {s : Step}
    (h : characterOrLifetime line cs = .ok s) :
    ∃ p : Part, p.Stands nested s.rest ∧ '\'' :: cs = p.text ++ s.rest := by
  unfold characterOrLifetime at h
  split at h
  · rename_i ds
    obtain ⟨body, hbody, hcs⟩ := afterCharacter_eq_some (literal_eq_ok h)
    have hhead : body.head? = some '\\' := by
      cases body with
      | nil => exact absurd (List.cons.inj hcs).1 (by decide)
      | cons c body => exact congrArg some (List.cons.inj hcs).1.symm
    refine ⟨.escapedCharacter body, ⟨⟨hhead, hbody⟩, trivial⟩, ?_⟩
    simp only [hcs, Part.text, List.cons_append, List.append_assoc, List.nil_append]
  · rename_i c rest hslash
    split at h
    · rename_i hc
      obtain rfl := Except.ok.inj h
      refine ⟨.quote, ⟨trivial, fun hhead => hslash (Option.some.inj hhead), fun _ => ?_⟩, rfl⟩
      exact congrArg some hc
    · rename_i hc
      obtain rfl := Except.ok.inj h
      exact ⟨.character c, ⟨⟨hslash, hc⟩, trivial⟩, rfl⟩
  · rename_i hslash hquote
    obtain rfl := Except.ok.inj h
    refine ⟨.quote, ⟨trivial, fun hhead => ?_, fun hhead => ?_⟩, rfl⟩
    · obtain ⟨rest, rfl⟩ := List.head?_eq_some_iff.mp hhead
      exact hslash rest rfl
    · cases cs with
      | nil => exact nomatch hhead
      | cons c cs =>
        obtain ⟨rest, rfl⟩ := List.head?_eq_some_iff.mp hhead
        exact absurd rfl (hquote c rest)

/-! ## Names -/

theorem isRawMark_eq_true {mark : List Char} (h : isRawMark mark = true) :
    mark = ['r'] ∨ mark = ['b', 'r'] ∨ mark = ['c', 'r'] := by
  simpa only [isRawMark, Bool.or_eq_true, beq_iff_eq, or_assoc] using h

theorem isRawMark_run {mark : List Char} (h : isRawMark mark = true) :
    IsRun Text.isNameStart Text.isNameChar mark := by
  rcases isRawMark_eq_true h with rfl | rfl | rfl
  · exact ⟨'r', [], rfl, by decide, nofun⟩
  · exact ⟨'b', ['r'], rfl, by decide, List.forall_mem_singleton.mpr (by decide)⟩
  · exact ⟨'c', ['r'], rfl, by decide, List.forall_mem_singleton.mpr (by decide)⟩

section

variable {line : Nat} {c : Char} {tail rest : List Char}

theorem identifier_name (htail : ∀ d ∈ tail, Text.isNameChar d = true)
    (hends : Ends Text.isNameChar rest)
    (hmark : isRawMark (c :: tail) = true → rest.head? ≠ some '"' ∧ rest.head? ≠ some '#') :
    Passed (identifier line c (tail ++ rest)) rest := by
  refine ⟨line, ?_⟩
  unfold identifier
  simp only [Text.takeWhile_run htail hends, Text.dropWhile_run htail hends]
  split
  · rename_i hraw
    obtain ⟨hquote, hhash⟩ := hmark hraw
    split
    · exact absurd rfl hquote
    · exact absurd rfl hhash
    · rfl
  · rfl

theorem identifier_mark {d : Char} (htail : ∀ d ∈ tail, Text.isNameChar d = true)
    (hmark : isRawMark (c :: tail) = true) (hquote : d ≠ '"') (hhash : d ≠ '#') :
    Passed (identifier line c (tail ++ '#' :: d :: rest)) (d :: rest) := by
  have hends : Ends Text.isNameChar ('#' :: d :: rest) := Text.ends_cons (by decide)
  refine ⟨line, ?_⟩
  unfold identifier
  simp only [Text.takeWhile_run htail hends, Text.dropWhile_run htail hends, hmark, if_true,
    hquote, hhash, or_self, if_false]

theorem identifier_rawString (htail : ∀ d ∈ tail, Text.isNameChar d = true)
    (hmark : isRawMark (c :: tail) = true)
    (hrest : rest.head? = some '"' ∨ ∃ d ds, rest = '#' :: d :: ds ∧ (d = '"' ∨ d = '#')) :
    identifier line c (tail ++ rest) = rawString line rest := by
  rcases hrest with hquote | ⟨d, ds, rfl, hd⟩
  · obtain ⟨rest, rfl⟩ := List.head?_eq_some_iff.mp hquote
    have hends : Ends Text.isNameChar ('"' :: rest) := Text.ends_cons (by decide)
    unfold identifier
    simp only [Text.takeWhile_run htail hends, Text.dropWhile_run htail hends, hmark, if_true]
  · have hends : Ends Text.isNameChar ('#' :: d :: ds) := Text.ends_cons (by decide)
    unfold identifier
    simp only [Text.takeWhile_run htail hends, Text.dropWhile_run htail hends, hmark, if_true, hd]

theorem identifier_raw {hashes : Nat} {body : List Char}
    (htail : ∀ d ∈ tail, Text.isNameChar d = true) (hmark : isRawMark (c :: tail) = true)
    (hbody : ¬rawEnd hashes <:+: body) :
    Passed (identifier line c
      (tail ++ (hashSigns hashes ++ '"' :: (body ++ (rawEnd hashes ++ rest))))) rest := by
  rw [identifier_rawString htail hmark]
  · exact rawString_passed hbody line rest
  · match hashes with
    | 0 => exact .inl rfl
    | 1 => exact .inr ⟨'"', _, rfl, .inl rfl⟩
    | _ + 2 => exact .inr ⟨'#', _, rfl, .inr rfl⟩

end

/-- Whatever is read as a name is one, or a raw literal, or announces a name. -/
theorem identifier_part {nested : Bool} {line : Nat} {c : Char} {cs : List Char} {s : Step}
    (hc : Text.isNameStart c = true) (h : identifier line c cs = .ok s) :
    ∃ p : Part, p.Stands nested s.rest ∧ c :: cs = p.text ++ s.rest := by
  have htail : ∀ d ∈ cs.takeWhile Text.isNameChar, Text.isNameChar d = true :=
    List.all_eq_true.mp List.all_takeWhile
  have hends := Text.ends_dropWhile Text.isNameChar cs
  have hcs : cs.takeWhile Text.isNameChar ++ cs.dropWhile Text.isNameChar = cs :=
    List.takeWhile_append_dropWhile
  have hrun : IsRun Text.isNameStart Text.isNameChar (c :: cs.takeWhile Text.isNameChar) :=
    ⟨c, _, rfl, hc, htail⟩
  unfold identifier at h
  simp only at h
  generalize cs.takeWhile Text.isNameChar = tail at h htail hcs hrun
  generalize cs.dropWhile Text.isNameChar = behind at h hends hcs
  subst hcs
  have hraw (hmark : isRawMark (c :: tail) = true) (h : rawString line behind = .ok s) :
      ∃ p : Part, p.Stands nested s.rest ∧ c :: (tail ++ behind) = p.text ++ s.rest := by
    obtain ⟨hashes, body, hbody, rfl⟩ := rawString_eq_ok h
    refine ⟨.raw (c :: tail) hashes body, ⟨⟨hmark, hbody⟩, trivial⟩, ?_⟩
    simp only [Part.text, List.cons_append, List.append_assoc]
  split at h
  · rename_i hmark
    split at h
    · exact hraw hmark h
    · split at h
      · exact hraw hmark h
      · rename_i d ds
        split at h
        · exact hraw hmark h
        · rename_i hd
          rw [not_or] at hd
          obtain rfl := Except.ok.inj h
          refine ⟨.nameMark (c :: tail), ⟨hmark, d, rfl, hd⟩, ?_⟩
          simp only [Part.text, List.cons_append, List.append_assoc, List.nil_append]
    · rename_i hquote hhash
      obtain rfl := Except.ok.inj h
      refine ⟨.name (c :: tail), ⟨hrun, hends, fun _ => ⟨fun hhead => ?_, fun hhead => ?_⟩⟩, rfl⟩
      · obtain ⟨rest, rfl⟩ := List.head?_eq_some_iff.mp hhead
        exact hquote rest rfl
      · obtain ⟨rest, rfl⟩ := List.head?_eq_some_iff.mp hhead
        exact hhash rest rfl
  · rename_i hmark
    obtain rfl := Except.ok.inj h
    exact ⟨.name (c :: tail), ⟨hrun, hends, fun hraw => absurd hraw hmark⟩, rfl⟩

/-! ## Comments -/

theorem lineComment_body (line : Nat) {body rest : List Char} (hbody : '\n' ∉ body)
    (hends : Ends (· != '\n') rest) :
    lineComment line (body ++ rest) =
      ⟨.comment (.ofLine line ('/' :: '/' :: Text.dropReturn body)), line, rest⟩ := by
  have hall : ∀ c ∈ body, (c != '\n') = true := fun c hc =>
    bne_iff_ne.mpr fun heq => hbody (heq ▸ hc)
  unfold lineComment
  simp only [Text.takeWhile_run hall hends, Text.dropWhile_run hall hends]
  rw [Text.dropReturn_cons (by decide), Text.dropReturn_cons (by decide)]

theorem lineComment_part (nested : Bool) (line : Nat) (cs : List Char) :
    ∃ p : Part, p.Stands nested (lineComment line cs).rest ∧
      '/' :: '/' :: cs = p.text ++ (lineComment line cs).rest := by
  refine ⟨.lineComment (cs.takeWhile (· != '\n')), ⟨fun hmem => ?_, Text.ends_dropWhile _ cs⟩, ?_⟩
  · exact absurd (List.all_eq_true.mp List.all_takeWhile _ hmem) (by decide)
  · exact congrArg ('/' :: '/' :: ·) List.takeWhile_append_dropWhile.symm

theorem blockComment_body {nested : Bool} {body : List Char} (h : BlockBody nested body)
    (line : Nat) (rest : List Char) :
    ∃ after, blockComment nested line (body ++ blockEnd ++ rest) =
      .ok ⟨.comment (.ofBlock line ('/' :: '*' :: (body ++ blockEnd))), after, rest⟩ := by
  unfold blockComment
  rw [blockRest_iff.mpr ⟨body, h, rfl, rfl⟩]
  exact ⟨_, rfl⟩

theorem blockComment_part {nested : Bool} {line : Nat} {cs : List Char} {s : Step}
    (h : blockComment nested line cs = .ok s) :
    ∃ p : Part, p.Stands nested s.rest ∧ '/' :: '*' :: cs = p.text ++ s.rest := by
  unfold blockComment at h
  split at h
  · cases h
  · rename_i hread
    obtain rfl := Except.ok.inj h
    obtain ⟨body, hbody, rfl, rfl⟩ := blockRest_iff.mp hread
    exact ⟨.blockComment body, ⟨hbody, trivial⟩, rfl⟩

/-! ## Steps -/

/-- Where no sign stands, the class of the first character tells what is read. -/
theorem step_other {nested : Bool} {line : Nat} {c : Char} {cs : List Char} (hsigns : c ∉ signs)
    (hslash : c = '/' → cs.head? ≠ some '/' ∧ cs.head? ≠ some '*')
    (hat : c = '@' → cs.head? ≠ some '"') :
    step nested line c cs =
      if Text.isNameStart c then identifier line c cs
      else if Text.isDigit c then .ok ⟨.code, line, cs.dropWhile isNumberChar⟩
      else .ok ⟨.code, nextLine line c, cs⟩ := by
  have hline : ∀ rest, c = '/' → cs = '/' :: rest → False := by
    rintro rest hc rfl
    exact (hslash hc).1 rfl
  have hblock : ∀ rest, c = '/' → cs = '*' :: rest → False := by
    rintro rest hc rfl
    exact (hslash hc).2 rfl
  have hverbatim : ∀ rest, c = '@' → cs = '"' :: rest → False := by
    rintro rest hc rfl
    exact hat hc rfl
  simp only [signs, openings, closings, List.mem_cons, List.mem_append, List.not_mem_nil, or_false,
    not_or] at hsigns
  obtain ⟨hquote, hcharacter, ⟨_, _, _⟩, _, _, _⟩ := hsigns
  rw [step] <;> first | rfl | assumption

/-- The signs of brackets, comments and literals are no names and no numbers. -/
theorem plain_of_class {f : Char → Bool} {c : Char} (hc : f c = true)
    (hf : ('/' :: '@' :: signs).all (!f ·) = true) :
    c ≠ '/' ∧ c ≠ '@' ∧ c ∉ signs := by
  have hplain : c ∉ '/' :: '@' :: signs := by
    intro hmem
    have hnot := List.all_eq_true.mp hf c hmem
    rw [hc] at hnot
    cases hnot
  simpa only [List.mem_cons, not_or] using hplain

theorem step_of_name {nested : Bool} {line : Nat} {c : Char} (hc : Text.isNameStart c = true)
    (cs : List Char) : step nested line c cs = identifier line c cs := by
  obtain ⟨hslash, hat, hsigns⟩ := plain_of_class hc (by decide)
  rw [step_other hsigns (fun h => absurd h hslash) (fun h => absurd h hat), if_pos hc]

theorem step_of_digit {nested : Bool} {line : Nat} {c : Char} (hc : Text.isDigit c = true)
    (cs : List Char) : step nested line c cs = .ok ⟨.code, line, cs.dropWhile isNumberChar⟩ := by
  obtain ⟨hslash, hat, hsigns⟩ := plain_of_class hc (by decide)
  have hname : ¬Text.isNameStart c = true := fun h =>
    Bool.false_ne_true ((Text.isDigit_of_isNameStart h).symm.trans hc)
  rw [step_other hsigns (fun h => absurd h hslash) (fun h => absurd h hat), if_neg hname, if_pos hc]

namespace Part

/-- What the scanner meets where a part begins on line `line`. -/
def item (line : Nat) : Part → Item
  | lineComment body => .comment (.ofLine line ('/' :: '/' :: Text.dropReturn body))
  | blockComment body => .comment (.ofBlock line ('/' :: '*' :: (body ++ blockEnd)))
  | opening bracket => .opening bracket
  | closing bracket => .closing bracket
  | _ => .code

end Part

/-- Each part is met for what it is. -/
theorem item_of_stands {nested : Bool} {p : Part} {rest : List Char} (h : p.Stands nested rest)
    (line : Nat) {c : Char} {cs : List Char} (hcs : c :: cs = p.text ++ rest) :
    ∃ after, step nested line c cs = .ok ⟨p.item line, after, rest⟩ := by
  obtain ⟨hsound, hends⟩ := h
  cases p <;> simp only [Part.text, List.cons_append, List.append_assoc, List.nil_append,
    List.cons.injEq] at hcs
  case lineComment body =>
    obtain ⟨rfl, rfl⟩ := hcs
    exact ⟨line, congrArg Except.ok (lineComment_body line hsound hends)⟩
  case blockComment body =>
    obtain ⟨rfl, rfl⟩ := hcs
    rw [← List.append_assoc]
    exact blockComment_body hsound line rest
  case string body =>
    obtain ⟨rfl, rfl⟩ := hcs
    exact literal_passed (hsound.afterString line rest)
  case verbatim body =>
    obtain ⟨rfl, rfl⟩ := hcs
    exact literal_passed (hsound.afterVerbatim line hends)
  case raw mark hashes body =>
    obtain ⟨d, tail, rfl, hd, htail⟩ := isRawMark_run hsound.1
    rw [List.cons_append, List.cons.injEq] at hcs
    obtain ⟨rfl, rfl⟩ := hcs
    rw [step_of_name hd]
    exact identifier_raw htail hsound.1 hsound.2
  case character d =>
    obtain ⟨rfl, rfl⟩ := hcs
    exact characterOrLifetime_plain hsound.1 hsound.2 line rest
  case escapedCharacter body =>
    obtain ⟨rfl, rfl⟩ := hcs
    exact characterOrLifetime_escaped hsound.1 hsound.2 line rest
  case quote =>
    obtain ⟨rfl, rfl⟩ := hcs
    exact characterOrLifetime_quote hends.1 hends.2 line
  case name cs =>
    obtain ⟨d, tail, rfl, hd, htail⟩ := hsound
    rw [List.cons_append, List.cons.injEq] at hcs
    obtain ⟨rfl, rfl⟩ := hcs
    rw [step_of_name hd]
    exact identifier_name htail hends.1 hends.2
  case nameMark mark =>
    obtain ⟨d, tail, rfl, hd, htail⟩ := isRawMark_run hsound
    rw [List.cons_append, List.cons.injEq] at hcs
    obtain ⟨rfl, rfl⟩ := hcs
    obtain ⟨e, hhead, hquote, hhash⟩ := hends
    obtain ⟨rest, rfl⟩ := List.head?_eq_some_iff.mp hhead
    rw [step_of_name hd]
    exact identifier_mark htail hsound hquote hhash
  case number ds =>
    obtain ⟨d, tail, rfl, hd, htail⟩ := hsound
    rw [List.cons_append, List.cons.injEq] at hcs
    obtain ⟨rfl, rfl⟩ := hcs
    rw [step_of_digit hd, Text.dropWhile_run htail hends]
    exact ⟨line, rfl⟩
  case opening bracket =>
    obtain ⟨rfl, rfl⟩ := hcs
    simp only [Part.Sound, openings, List.mem_cons, List.not_mem_nil, or_false] at hsound
    rcases hsound with rfl | rfl | rfl <;> exact ⟨line, rfl⟩
  case closing bracket =>
    obtain ⟨rfl, rfl⟩ := hcs
    simp only [Part.Sound, closings, List.mem_cons, List.not_mem_nil, or_false] at hsound
    rcases hsound with rfl | rfl | rfl <;> exact ⟨line, rfl⟩
  case other d =>
    obtain ⟨rfl, rfl⟩ := hcs
    obtain ⟨hsigns, hname, hdigit⟩ := hsound
    rw [step_other hsigns hends.1 hends.2, hname, hdigit]
    exact ⟨_, rfl⟩

/-- The line is counted right behind whatever a step reads. -/
theorem Reads.line_eq {line : Nat} {text cs : List Char} {s : Step} (h : Reads line cs s)
    (hcs : cs = text ++ s.rest) : s.line = line + Text.newlines text := by
  cases h with
  | code _ hpasses =>
    obtain ⟨used, hused, rfl⟩ := hpasses
    rw [List.append_cancel_right (hused.trans hcs)]
  | comment _ _ hend hcomment hpasses =>
    obtain ⟨used, rfl, rfl⟩ := hpasses
    rw [← hcomment, ← List.append_assoc] at hcs
    rw [← List.append_cancel_right hcs, Text.newlines_append, hend, Nat.add_assoc]

/-- Where a part stands, it is read, and nothing behind it. -/
theorem step_of_stands {nested : Bool} {p : Part} {rest : List Char} (h : p.Stands nested rest)
    (line : Nat) {c : Char} {cs : List Char} (hcs : c :: cs = p.text ++ rest) :
    step nested line c cs = .ok ⟨p.item line, line + Text.newlines p.text, rest⟩ := by
  obtain ⟨after, hstep⟩ := item_of_stands h line hcs
  have hline : after = line + Text.newlines p.text := (step_reads hstep).line_eq hcs
  rw [hstep, hline]

/-- Whatever is read is a part, which stands in front of what is left. -/
theorem stands_of_step {nested : Bool} {line : Nat} {c : Char} {cs : List Char} {s : Step}
    (h : step nested line c cs = .ok s) :
    ∃ p : Part, p.Stands nested s.rest ∧ c :: cs = p.text ++ s.rest := by
  unfold step at h
  split at h
  · obtain rfl := Except.ok.inj h
    exact lineComment_part nested line _
  · exact blockComment_part h
  · obtain ⟨body, hbody, rfl⟩ := afterString_eq_some (literal_eq_ok h)
    refine ⟨.string body, ⟨hbody, trivial⟩, ?_⟩
    simp only [Part.text, List.cons_append, List.append_assoc, List.nil_append]
  · exact characterOrLifetime_part h
  · obtain ⟨body, hbody, hrest, rfl⟩ := afterVerbatim_eq_some (literal_eq_ok h)
    refine ⟨.verbatim body, ⟨hbody, hrest⟩, ?_⟩
    simp only [Part.text, List.cons_append, List.append_assoc, List.nil_append]
  iterate 3
    obtain rfl := Except.ok.inj h
    exact ⟨.opening _, ⟨show _ ∈ openings by decide, trivial⟩, rfl⟩
  iterate 3
    obtain rfl := Except.ok.inj h
    exact ⟨.closing _, ⟨show _ ∈ closings by decide, trivial⟩, rfl⟩
  rename_i hquote hcharacter hround hsquare hcurly hround' hsquare' hcurly' hline hblock hverbatim
  split at h
  · rename_i hname
    exact identifier_part hname h
  · rename_i hname
    split at h
    · rename_i hdigit
      obtain rfl := Except.ok.inj h
      refine ⟨.number (c :: cs.takeWhile isNumberChar), ⟨⟨c, _, rfl, hdigit, ?_⟩, ?_⟩, ?_⟩
      · exact List.all_eq_true.mp List.all_takeWhile
      · exact Text.ends_dropWhile _ _
      · exact congrArg (c :: ·) List.takeWhile_append_dropWhile.symm
    · rename_i hdigit
      obtain rfl := Except.ok.inj h
      have hsigns : c ∉ signs := by
        simp only [signs, openings, closings, List.mem_cons, List.mem_append, List.not_mem_nil,
          or_false, not_or]
        exact ⟨hquote, hcharacter, ⟨hround, hsquare, hcurly⟩, hround', hsquare', hcurly'⟩
      have hends : (Part.other c).EndsAt cs := by
        refine ⟨fun hc => ⟨fun hhead => ?_, fun hhead => ?_⟩, fun hc hhead => ?_⟩ <;>
          obtain ⟨rest, rfl⟩ := List.head?_eq_some_iff.mp hhead
        · exact hline rest hc rfl
        · exact hblock rest hc rfl
        · exact hverbatim rest hc rfl
      exact ⟨.other c, ⟨⟨hsigns, Bool.eq_false_iff.mpr hname,
        Bool.eq_false_iff.mpr hdigit⟩, hends⟩, rfl⟩

end Source
end CheckScript
