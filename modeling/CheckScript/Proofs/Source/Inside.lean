/-
The readers of literals and comments against the grammar of their insides.

Behind the sign that opens a literal or a comment, each reader comes to an end exactly if the
text begins with an inside of that kind and the sign that ends it.  What is left is what follows
that sign.
-/
import CheckScript.Proofs.Source.Parts
import CheckScript.Proofs.Source.Placement

namespace CheckScript
namespace Source

/-! ## Literals -/

theorem Escaped.afterString {body : List Char} (h : Escaped InString body) (line : Nat)
    (rest : List Char) : ∃ after, afterString line (body ++ '"' :: rest) = some (after, rest) := by
  induction h generalizing line with
  | nil => exact ⟨line, rfl⟩
  | escape c _ ih =>
    rw [List.cons_append, List.cons_append, Source.afterString]
    exact ih _
  | plain hc hslash _ ih =>
    rw [List.cons_append, Source.afterString]
    · exact ih _
    · exact hc
    · exact fun _ _ h => absurd h hslash

/-- A backslash that takes nothing along stands at the end. -/
theorem ne_of_unescaped {c : Char} {cs : List Char}
    (h : ∀ d ds, c = '\\' → cs = d :: ds → False) (hcs : cs ≠ []) : c ≠ '\\' := by
  rintro rfl
  obtain ⟨d, ds, rfl⟩ := List.exists_cons_of_ne_nil hcs
  exact h d ds rfl rfl

theorem afterString_eq_some {line after : Nat} {cs rest : List Char}
    (h : afterString line cs = some (after, rest)) :
    ∃ body, Escaped InString body ∧ cs = body ++ '"' :: rest := by
  fun_induction Source.afterString line cs with
  | case1 => cases h
  | case2 line cs =>
    obtain ⟨rfl, rfl⟩ := Prod.mk.inj (Option.some.inj h)
    exact ⟨[], .nil, rfl⟩
  | case3 line c cs ih =>
    obtain ⟨body, hbody, rfl⟩ := ih h
    exact ⟨'\\' :: c :: body, .escape c hbody, rfl⟩
  | case4 line c cs hquote hslash ih =>
    obtain ⟨body, hbody, rfl⟩ := ih h
    exact ⟨c :: body, .plain hquote (ne_of_unescaped hslash (by simp)) hbody, rfl⟩

theorem Doubled.afterVerbatim {body : List Char} (h : Doubled body) (line : Nat)
    {rest : List Char} (hrest : rest.head? ≠ some '"') :
    ∃ after, afterVerbatim line (body ++ '"' :: rest) = some (after, rest) := by
  induction h generalizing line with
  | nil =>
    have hend : ∀ tail, rest = '"' :: tail → False := by
      rintro _ rfl
      exact hrest rfl
    refine ⟨line, ?_⟩
    rw [List.nil_append, Source.afterVerbatim] <;> first | rfl | assumption
  | quotes _ ih =>
    rw [List.cons_append, List.cons_append, Source.afterVerbatim]
    exact ih line
  | plain hc _ ih =>
    rw [List.cons_append, Source.afterVerbatim]
    · exact ih _
    · exact fun _ h => absurd h hc
    · exact hc

theorem afterVerbatim_eq_some {line after : Nat} {cs rest : List Char}
    (h : afterVerbatim line cs = some (after, rest)) :
    ∃ body, Doubled body ∧ rest.head? ≠ some '"' ∧ cs = body ++ '"' :: rest := by
  fun_induction Source.afterVerbatim line cs with
  | case1 => cases h
  | case2 line cs ih =>
    obtain ⟨body, hbody, hrest, rfl⟩ := ih h
    exact ⟨'"' :: '"' :: body, .quotes hbody, hrest, rfl⟩
  | case3 line cs hquote =>
    obtain ⟨rfl, rfl⟩ := Prod.mk.inj (Option.some.inj h)
    refine ⟨[], .nil, fun hhead => ?_, rfl⟩
    obtain ⟨rest, rfl⟩ := List.head?_eq_some_iff.mp hhead
    exact hquote rest rfl
  | case4 line c cs _ hc ih =>
    obtain ⟨body, hbody, hrest, rfl⟩ := ih h
    exact ⟨c :: body, .plain hc hbody, hrest, rfl⟩

/-- A raw literal does not end early: hash signs that are not all there cannot be completed by
the quote that ends it. -/
theorem not_prefix_behind {hashes : Nat} {body rest : List Char}
    (h : ¬hashSigns hashes <+: body) : ¬hashSigns hashes <+: body ++ '"' :: rest := by
  intro hprefix
  rcases List.prefix_or_prefix_of_prefix hprefix (List.prefix_append body _) with
    hbody | ⟨tail, htail⟩
  · exact h hbody
  · rw [← htail, List.prefix_append_right_inj] at hprefix
    cases tail with
    | nil => exact h ⟨[], by rw [List.append_nil, ← htail, List.append_nil]⟩
    | cons c tail =>
      obtain ⟨rfl, -⟩ := List.cons_prefix_cons.mp hprefix
      have hmem : '"' ∈ hashSigns hashes := htail ▸ List.mem_append_right _ List.mem_cons_self
      exact absurd (List.eq_of_mem_replicate hmem) (by decide)

theorem afterRaw_body {hashes : Nat} {body : List Char} (h : ¬rawEnd hashes <:+: body)
    (line : Nat) (rest : List Char) :
    ∃ after, afterRaw hashes line (body ++ (rawEnd hashes ++ rest)) = some (after, rest) := by
  induction body generalizing line with
  | nil =>
    have hhashes : (List.replicate hashes '#').isPrefixOf (hashSigns hashes ++ rest) :=
      List.isPrefixOf_iff_prefix.mpr (List.prefix_append _ rest)
    refine ⟨line, ?_⟩
    show afterRaw hashes line ('"' :: (hashSigns hashes ++ rest)) = _
    rw [afterRaw, if_pos ⟨rfl, hhashes⟩, hashSigns, List.drop_left' List.length_replicate]
  | cons c body ih =>
    rw [List.infix_cons_iff, not_or] at h
    have hopen : ¬(c = '"' ∧ (List.replicate hashes '#').isPrefixOf
        (body ++ (rawEnd hashes ++ rest))) := by
      rintro ⟨rfl, hprefix⟩
      refine not_prefix_behind (fun hbody => h.1 ?_) (List.isPrefixOf_iff_prefix.mp hprefix)
      exact List.cons_prefix_cons.mpr ⟨rfl, hbody⟩
    rw [List.cons_append, afterRaw, if_neg hopen]
    exact ih h.2 _

theorem afterRaw_eq_some {hashes line after : Nat} {cs rest : List Char}
    (h : afterRaw hashes line cs = some (after, rest)) :
    ∃ body, ¬rawEnd hashes <:+: body ∧ cs = body ++ (rawEnd hashes ++ rest) := by
  fun_induction afterRaw hashes line cs with
  | case1 => cases h
  | case2 line c cs hclose =>
    obtain ⟨rfl, hprefix⟩ := hclose
    obtain ⟨rest, rfl⟩ := List.isPrefixOf_iff_prefix.mp hprefix
    rw [List.drop_left' List.length_replicate] at h
    obtain ⟨rfl, rfl⟩ := Prod.mk.inj (Option.some.inj h)
    exact ⟨[], fun h => List.cons_ne_nil _ _ (List.infix_nil.mp h), rfl⟩
  | case3 line c cs hopen ih =>
    obtain ⟨body, hbody, rfl⟩ := ih h
    refine ⟨c :: body, ?_, rfl⟩
    rw [List.infix_cons_iff, not_or]
    refine ⟨fun hprefix => hopen ?_, hbody⟩
    obtain ⟨rfl, hhashes⟩ := List.cons_prefix_cons.mp hprefix
    exact ⟨rfl, List.isPrefixOf_iff_prefix.mpr (hhashes.trans (List.prefix_append body _))⟩

theorem Escaped.afterCharacter {body : List Char} (h : Escaped InCharacter body) (line : Nat)
    (rest : List Char) :
    ∃ after, afterCharacter line (body ++ '\'' :: rest) = some (after, rest) := by
  induction h generalizing line with
  | nil => exact ⟨line, rfl⟩
  | escape c _ ih =>
    rw [List.cons_append, List.cons_append, Source.afterCharacter]
    exact ih _
  | plain hc hslash _ ih =>
    rw [List.cons_append, Source.afterCharacter]
    · exact ih line
    · exact hc.2
    · exact hc.1
    · exact fun _ _ h => absurd h hslash

theorem afterCharacter_eq_some {line after : Nat} {cs rest : List Char}
    (h : afterCharacter line cs = some (after, rest)) :
    ∃ body, Escaped InCharacter body ∧ cs = body ++ '\'' :: rest := by
  fun_induction Source.afterCharacter line cs with
  | case1 => cases h
  | case2 => cases h
  | case3 line cs =>
    obtain ⟨rfl, rfl⟩ := Prod.mk.inj (Option.some.inj h)
    exact ⟨[], .nil, rfl⟩
  | case4 line c cs ih =>
    obtain ⟨body, hbody, rfl⟩ := ih h
    exact ⟨'\\' :: c :: body, .escape c hbody, rfl⟩
  | case5 line c cs hnewline hquote hslash ih =>
    obtain ⟨body, hbody, rfl⟩ := ih h
    have hplain := ne_of_unescaped hslash (by simp)
    exact ⟨c :: body, .plain ⟨hquote, hnewline⟩ hplain hbody, rfl⟩

/-! ## Comments -/

theorem flatBlock_body {body : List Char} (h : ¬blockEnd <:+: body) (rest : List Char) :
    flatBlock (body ++ (blockEnd ++ rest)) = some (body ++ blockEnd, rest) := by
  induction body with
  | nil => rfl
  | cons c body ih =>
    rw [List.infix_cons_iff, not_or] at h
    have hopen : ∀ tail, c = '*' → body ++ (blockEnd ++ rest) = '/' :: tail → False := by
      rintro tail rfl htail
      cases body with
      | nil => cases htail
      | cons d body =>
        obtain ⟨rfl, -⟩ := List.cons.inj htail
        exact h.1 ⟨body, rfl⟩
    have hstep : flatBlock (c :: (body ++ (blockEnd ++ rest))) =
        (flatBlock (body ++ (blockEnd ++ rest))).map fun r => (c :: r.1, r.2) := by
      rw [flatBlock] <;> first | rfl | assumption
    rw [List.cons_append, hstep, ih h.2]
    rfl

theorem flatBlock_iff {cs text rest : List Char} :
    flatBlock cs = some (text, rest) ↔
      ∃ body, ¬blockEnd <:+: body ∧ text = body ++ blockEnd ∧ cs = text ++ rest := by
  constructor
  · intro h
    have hcs := flatBlock_append h
    suffices hbody : ∃ body, ¬blockEnd <:+: body ∧ text = body ++ blockEnd by
      obtain ⟨body, hbody, htext⟩ := hbody
      exact ⟨body, hbody, htext, hcs.symm⟩
    fun_induction flatBlock cs generalizing text with
    | case1 => cases h
    | case2 =>
      obtain ⟨rfl, rfl⟩ := Prod.mk.inj (Option.some.inj h)
      exact ⟨[], fun h => List.cons_ne_nil _ _ (List.infix_nil.mp h), rfl⟩
    | case3 c cs hopen ih =>
      obtain ⟨⟨t, r⟩, hr, heq⟩ := Option.map_eq_some_iff.mp h
      obtain ⟨rfl, rfl⟩ := Prod.mk.inj heq
      have hrest := flatBlock_append hr
      obtain ⟨body, hbody, rfl⟩ := ih hr hrest
      refine ⟨c :: body, ?_, rfl⟩
      rw [List.infix_cons_iff, not_or]
      refine ⟨fun hprefix => ?_, hbody⟩
      obtain ⟨rfl, tail, htail⟩ := List.cons_prefix_cons.mp hprefix
      refine hopen (tail ++ (blockEnd ++ r)) rfl ?_
      rw [← hrest, ← htail]
      simp only [List.append_assoc, List.cons_append, List.nil_append]
  · rintro ⟨body, hbody, rfl, rfl⟩
    rw [List.append_assoc]
    exact flatBlock_body hbody rest

theorem Nested.ne_nil {text : List Char} (h : Nested text) : text ≠ [] := by
  cases h <;> exact List.cons_ne_nil _ _

theorem Nested.head?_append {text : List Char} (h : Nested text) (rest : List Char) :
    (text ++ rest).head? = text.head? := by
  obtain ⟨c, cs, rfl⟩ := List.exists_cons_of_ne_nil h.ne_nil
  rfl

/-- What is read behind the end of a comment inside `depth` more comments. -/
def behindNested : Nat → List Char → Option (List Char × List Char)
  | 0, rest => some ([], rest)
  | depth + 1, rest => nestedBlock depth rest

theorem Nested.nestedBlock {text : List Char} (h : Nested text) (depth : Nat) (rest : List Char) :
    nestedBlock depth (text ++ rest) =
      (behindNested depth rest).map fun r => (text ++ r.1, r.2) := by
  induction h generalizing depth rest with
  | close =>
    cases depth with
    | zero => rfl
    | succ depth => rfl
  | @inner inner tail _ _ ihinner ihtail =>
    rw [List.cons_append, List.cons_append, List.append_assoc, Source.nestedBlock, ihinner]
    show ((Source.nestedBlock depth (tail ++ rest)).map _).map _ = _
    rw [ihtail, Option.map_map, Option.map_map]
    congr 1
    funext r
    simp only [Function.comp, List.append_assoc, List.cons_append]
  | @plain c tail hopen hclose htail ih =>
    have hhead := htail.head?_append rest
    have hinner : ∀ behind, c = '/' → tail ++ rest = '*' :: behind → False :=
      fun behind hc hbehind => hopen hc (by rw [← hhead, hbehind]; rfl)
    have hend : ∀ behind, c = '*' → tail ++ rest = '/' :: behind → False :=
      fun behind hc hbehind => hclose hc (by rw [← hhead, hbehind]; rfl)
    have hzero : ∀ behind, depth = 0 → c = '*' → tail ++ rest = '/' :: behind → False :=
      fun behind _ => hend behind
    have hsucc : ∀ d behind, depth = Nat.succ d → c = '*' → tail ++ rest = '/' :: behind → False :=
      fun _ behind _ => hend behind
    have hstep : Source.nestedBlock depth (c :: (tail ++ rest)) =
        (Source.nestedBlock depth (tail ++ rest)).map fun r => (c :: r.1, r.2) := by
      rw [Source.nestedBlock] <;> first | rfl | assumption
    rw [List.cons_append, hstep, ih, Option.map_map]
    rfl

/-- The rests of a comment and of the `depth` comments around it. -/
def NestedIn : Nat → List Char → Prop
  | 0, text => Nested text
  | depth + 1, text => ∃ inner outer, text = inner ++ outer ∧ Nested inner ∧ NestedIn depth outer

theorem NestedIn.ne_nil {depth : Nat} {text : List Char} (h : NestedIn depth text) : text ≠ [] := by
  cases depth with
  | zero => exact Nested.ne_nil h
  | succ depth =>
    obtain ⟨inner, outer, rfl, hinner, -⟩ := h
    exact List.append_ne_nil_of_left_ne_nil hinner.ne_nil outer

/-- A comment that begins inside another ends before it. -/
theorem NestedIn.inner {depth : Nat} {text : List Char} (h : NestedIn (depth + 1) text) :
    NestedIn depth ('/' :: '*' :: text) := by
  obtain ⟨inner, outer, rfl, hinner, houter⟩ := h
  cases depth with
  | zero => exact Nested.inner hinner houter
  | succ depth =>
    obtain ⟨next, outer, rfl, hnext, houter⟩ := houter
    refine ⟨'/' :: '*' :: (inner ++ next), outer, ?_, Nested.inner hinner hnext, houter⟩
    simp only [List.cons_append, List.append_assoc]

theorem NestedIn.plain {depth : Nat} {c : Char} {text : List Char}
    (hopen : c = '/' → text.head? ≠ some '*') (hclose : c = '*' → text.head? ≠ some '/')
    (h : NestedIn depth text) : NestedIn depth (c :: text) := by
  cases depth with
  | zero => exact Nested.plain hopen hclose h
  | succ depth =>
    obtain ⟨inner, outer, rfl, hinner, houter⟩ := h
    rw [hinner.head?_append] at hopen hclose
    exact ⟨c :: inner, outer, rfl, Nested.plain hopen hclose hinner, houter⟩

theorem nestedIn_of_nestedBlock {depth : Nat} {cs text rest : List Char}
    (h : nestedBlock depth cs = some (text, rest)) : NestedIn depth text := by
  fun_induction nestedBlock depth cs generalizing text with
  | case1 => cases h
  | case2 =>
    obtain ⟨rfl, rfl⟩ := Prod.mk.inj (Option.some.inj h)
    exact Nested.close
  | case3 depth cs ih =>
    obtain ⟨⟨t, r⟩, hr, heq⟩ := Option.map_eq_some_iff.mp h
    obtain ⟨rfl, rfl⟩ := Prod.mk.inj heq
    exact ⟨blockEnd, t, rfl, .close, ih hr⟩
  | case4 depth cs ih =>
    obtain ⟨⟨t, r⟩, hr, heq⟩ := Option.map_eq_some_iff.mp h
    obtain ⟨rfl, rfl⟩ := Prod.mk.inj heq
    exact (ih hr).inner
  | case5 depth c cs hzero hsucc hopen ih =>
    obtain ⟨⟨t, r⟩, hr, heq⟩ := Option.map_eq_some_iff.mp h
    obtain ⟨rfl, rfl⟩ := Prod.mk.inj heq
    have ht := ih hr
    obtain ⟨d, t, rfl⟩ := List.exists_cons_of_ne_nil ht.ne_nil
    have hcs : d :: (t ++ r) = cs := nestedBlock_append hr
    refine .plain (fun hc hd => ?_) (fun hc hd => ?_) ht
    · obtain rfl := Option.some.inj hd
      exact hopen _ hc hcs.symm
    · obtain rfl := Option.some.inj hd
      cases depth with
      | zero => exact hzero _ rfl hc hcs.symm
      | succ depth => exact hsucc depth _ rfl hc hcs.symm

theorem blockRest_iff {nested : Bool} {cs text rest : List Char} :
    blockRest nested cs = some (text, rest) ↔
      ∃ body, BlockBody nested body ∧ text = body ++ blockEnd ∧ cs = text ++ rest := by
  cases nested with
  | false => exact flatBlock_iff
  | true =>
    constructor
    · intro h
      obtain ⟨body, rfl⟩ := nestedBlock_closed h
      exact ⟨body, nestedIn_of_nestedBlock h, rfl, (nestedBlock_append h).symm⟩
    · rintro ⟨body, hbody, rfl, rfl⟩
      have hrest := Nested.nestedBlock hbody 0 rest
      rwa [behindNested, Option.map_some, List.append_nil] at hrest

end Source
end CheckScript
