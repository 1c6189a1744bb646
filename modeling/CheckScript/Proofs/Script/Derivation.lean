/-
What the parser does not report is a derivation.

`Outcome s R r` says what may come out of reading at the state `s`: either more is reported
than before, or there is a value, the words that were passed are related to it by `R`, and
nothing else has changed.  `Reads p R` says so of every state, and has one rule for each
way in which parsers are put together.  The relation also sees the words that are left, since
an operator is read as far as the next word lets it.
-/
import CheckScript.Proofs.Script.Grammar
import CheckScript.Proofs.Script.Step

namespace CheckScript
namespace Script
namespace Parser

theorem onward_of_lt {s t : State} (h : t.rest.length < s.rest.length) : onward s t = t :=
  if_pos h

theorem onward_finish (s t : State) : (onward s t).finish = t.finish := by
  unfold onward
  split <;> rfl

theorem onward_diagnostics (s t : State) : (onward s t).diagnostics = t.diagnostics := by
  unfold onward
  split <;> rfl

theorem rest_of_head {s : State} (hfinish : s.finish.kind = .finish)
    (hhead : s.head.kind ≠ .finish) : ∃ rest, s.rest = s.head :: rest := by
  unfold State.head at hhead ⊢
  split at hhead
  · exact absurd hfinish hhead
  · rename_i t rest hrest
    exact ⟨rest, by rw [hrest]⟩

theorem rest_of_second {s : State} {kind : TokenKind} (h : s.second? = some kind) :
    ∃ u rest, s.rest = s.head :: u :: rest ∧ u.kind = kind := by
  unfold State.second? at h
  split at h
  · rename_i t u rest hrest
    exact ⟨u, rest, by rw [State.head, hrest], Option.some.inj h⟩
  · cases h

inductive Outcome {α : Type} (s : State) (R : List Token → α → List Token → Prop) :
    Option α × State → Prop where
  | reported {a : Option α} {t : State} (hfinish : t.finish = s.finish)
      (hmore : s.diagnostics.length < t.diagnostics.length) : Outcome s R (a, t)
  | passed {a : α} {used rest : List Token} (hrest : s.rest = used ++ rest)
      (h : R used a rest) : Outcome s R (some a, { s with rest := rest })

/-- Reading at states whose next word is `t`. -/
def ReadsAt {α : Type} (t : Token) (p : Parser α) (R : List Token → α → List Token → Prop) :
    Prop :=
  ∀ s : State, s.finish.kind = .finish → s.head = t → Outcome s R (p s)

def Reads {α : Type} (p : Parser α) (R : List Token → α → List Token → Prop) : Prop :=
  ∀ t, ReadsAt t p R

/-! ## Outcomes one after the other -/

namespace Outcome

variable {α β : Type} {s t : State} {P R : List Token → α → List Token → Prop}
  {Q : List Token → β → List Token → Prop}

theorem finish_eq {r : Option α × State} (h : Outcome s R r) : r.2.finish = s.finish := by
  cases h with
  | reported hfinish => exact hfinish
  | passed => rfl

theorem length_le {r : Option α × State} (h : Outcome s R r) :
    s.diagnostics.length ≤ r.2.diagnostics.length := by
  cases h with
  | reported _ hmore => exact Nat.le_of_lt hmore
  | passed => exact Nat.le_refl _

theorem weaken {r : Option α × State} (h : Outcome s P r)
    (hR : ∀ used a rest, P used a rest → R used a rest) : Outcome s R r := by
  cases h with
  | reported hfinish hmore => exact .reported hfinish hmore
  | passed hrest h => exact .passed hrest (hR _ _ _ h)

theorem map {a : α} {b : β} (h : Outcome s P (some a, t))
    (hQ : ∀ used rest, P used a rest → Q used b rest) : Outcome s Q (some b, t) := by
  cases h with
  | reported hfinish hmore => exact .reported hfinish hmore
  | passed hrest h => exact .passed hrest (hQ _ _ h)

/-- Without a value there is a report. -/
theorem of_none (h : Outcome s P (none, t)) : Outcome s Q (none, t) := by
  cases h with
  | reported hfinish hmore => exact .reported hfinish hmore

/-- Whatever is read behind a report, the report stays. -/
theorem of_reported {r : Option β × State} {R : List Token → β → List Token → Prop}
    (hfinish : t.finish = s.finish) (hmore : s.diagnostics.length < t.diagnostics.length)
    (h : Outcome t Q r) : Outcome s R r :=
  .reported (h.finish_eq.trans hfinish) (Nat.lt_of_lt_of_le hmore h.length_le)

theorem of_not_passed {a : α} (h : Outcome s P (some a, t))
    (hnot : ∀ used, s.rest = used ++ t.rest → ¬P used a t.rest) : Outcome s Q (none, t) := by
  cases h with
  | reported hfinish hmore => exact .reported hfinish hmore
  | passed hrest h => exact absurd h (hnot _ hrest)

/-- No word is passed. -/
theorem stay {a : α} (h : P [] a s.rest) : Outcome s P (some a, s) :=
  have hrest : s.rest = [] ++ s.rest := rfl
  .passed hrest h

/-- One word is passed. -/
theorem word {u : Token} {rest : List Token} (hrest : s.rest = u :: rest) :
    Outcome s (fun used _ _ => used = [u]) (some u, { s with rest := rest }) :=
  .passed hrest rfl

theorem andThen {r : Option β × State} {a : α} (h : Outcome s P (some a, t))
    (hr : Outcome t (fun used b rest => ∀ before, P before a (used ++ rest) →
      Q (before ++ used) b rest) r) : Outcome s Q r := by
  cases h with
  | reported hfinish hmore => exact of_reported hfinish hmore hr
  | passed hrest h =>
    cases hr with
    | reported hfinish hmore => exact .reported hfinish hmore
    | passed hused hQ =>
      rename_i before _ b used rest
      change _ = used ++ rest at hused
      subst hused
      have hboth : s.rest = (before ++ used) ++ rest := by rw [hrest, List.append_assoc]
      exact .passed hboth (hQ before h)

/-- Reading goes on where it has come to, if a word has been passed. -/
theorem onward {a : α} (h : Outcome s P (some a, t))
    (hne : ∀ used, P used a t.rest → used ≠ []) : Outcome s P (some a, onward s t) := by
  cases h with
  | reported hfinish hmore =>
    refine .reported ?_ ?_
    · rw [onward_finish, hfinish]
    · rwa [onward_diagnostics]
  | passed hrest h =>
    rename_i used rest
    have hpos := List.length_pos_iff.mpr (hne used h)
    rw [onward_of_lt]
    · exact .passed hrest h
    · rw [hrest, List.length_append]
      exact Nat.lt_add_of_pos_left hpos

end Outcome

/-! ## Rules for parsers -/

section

variable {α β : Type} {R : List Token → α → List Token → Prop}
  {Q : List Token → β → List Token → Prop}

namespace ReadsAt

variable {t : Token}

theorem weaken {p : Parser α} {P : List Token → α → List Token → Prop} (hp : ReadsAt t p P)
    (hR : ∀ used a rest, P used a rest → R used a rest) : ReadsAt t p R :=
  fun s hfinish hhead => (hp s hfinish hhead).weaken hR

theorem report (problem : TokenKind → Problem) : ReadsAt t (report problem : Parser α) R := by
  intro s _ _
  refine .reported rfl ?_
  simp

/-- No word is passed, and the next one is still `t`. -/
theorem pure {a : α} (h : ∀ rest, (∀ u, rest.head? = some u → u = t) → R [] a rest) :
    ReadsAt t (pure a) R := by
  intro s _ hhead
  refine .stay (h s.rest fun u hu => ?_)
  rw [← hhead, State.head]
  split
  · rename_i hnil
    rw [hnil] at hu
    cases hu
  · rename_i hcons
    rw [hcons] at hu
    cases hu
    rfl

theorem advance {f : Token → Parser β} {kind : TokenKind} (ht : t.kind = kind)
    (hkind : kind ≠ .finish) (h : Reads (f t) fun used b rest => Q (t :: used) b rest) :
    ReadsAt t (advance >>= f) Q := by
  intro s hfinish hhead
  obtain ⟨rest, hrest⟩ := rest_of_head hfinish (by rwa [hhead, ht])
  rw [hhead] at hrest
  rw [bind_some (advance_cons hrest)]
  refine (Outcome.word hrest).andThen ?_
  refine (h _ { s with rest := rest } hfinish rfl).weaken ?_
  intro used b rest hQ before hbefore
  rw [hbefore]
  exact hQ

theorem nested {room : Nat} {p : (r : Nat) → r < room → Parser α}
    (h : ∀ r hr, ReadsAt t (p r hr) R) : ReadsAt t (nested room p) R := by
  cases room with
  | zero => exact report .tooDeep
  | succ r => exact h r (Nat.lt_succ_self r)

theorem bind {p : Parser α} {f : α → Parser β} (hp : ReadsAt t p R)
    (hf : ∀ a, Reads (f a) fun used b rest => ∀ before, R before a (used ++ rest) →
      Q (before ++ used) b rest) : ReadsAt t (p >>= f) Q := by
  intro s hfinish hhead
  have hs := hp s hfinish hhead
  rw [bind_apply]
  split
  · rename_i a u hread
    rw [hread] at hs
    exact hs.andThen (hf a _ u (hs.finish_eq ▸ hfinish) rfl)
  · rename_i u hread
    rw [hread] at hs
    exact hs.of_none

/-- The first word that is passed is the next one. -/
theorem heads {p : Parser α} (hp : ReadsAt t p R) :
    ReadsAt t p fun used a rest => R used a rest ∧ ∀ u us, used = u :: us → u = t := by
  intro s hfinish hhead
  cases hs : p s with | mk found s' => ?_
  have h := hp s hfinish hhead
  rw [hs] at h
  cases h with
  | reported hfinish hmore => exact .reported hfinish hmore
  | passed hrest hR =>
    refine .passed hrest ⟨hR, fun u us hused => ?_⟩
    rw [← hhead, State.head, hrest, hused]
    rfl

/-- Two words are passed where the second one is of the kind that was looked for. -/
theorem second {f g : Parser α} {next : TokenKind} (hnext : next ≠ .finish)
    (hf : ∀ u, u.kind = next → Reads f fun used a rest => R (t :: u :: used) a rest)
    (hg : ReadsAt t g R) :
    ReadsAt t (do
      if (← Parser.second) = some next then
        let _ ← Parser.advance
        let _ ← Parser.advance
        f
      else g) R := by
  intro s hfinish hhead
  by_cases hsecond : s.second? = some next
  · obtain ⟨u, rest, hrest, hu⟩ := rest_of_second hsecond
    rw [hhead] at hrest
    rw [bind_apply]
    simp only [Parser.second, hsecond, if_true]
    rw [bind_some (advance_cons hrest)]
    have hbehind : Outcome { s with rest := u :: rest }
        (fun used a rest => R (t :: used) a rest) ((Parser.advance >>= fun _ => f) _) :=
      ReadsAt.advance hu hnext (hf u hu) _ hfinish rfl
    refine (Outcome.word hrest).andThen (hbehind.weaken ?_)
    intro used a rest hR before hbefore
    rw [hbefore]
    exact hR
  · rw [bind_apply]
    simp only [Parser.second, hsecond, if_false]
    exact hg s hfinish hhead

end ReadsAt

namespace Reads

theorem weaken {p : Parser α} {P : List Token → α → List Token → Prop} (hp : Reads p P)
    (hR : ∀ used a rest, P used a rest → R used a rest) : Reads p R :=
  fun t => (hp t).weaken hR

theorem peek {f : Token → Parser β} (h : ∀ t, ReadsAt t (f t) Q) : Reads (peek >>= f) Q := by
  intro t s hfinish _
  exact h s.head s hfinish rfl

theorem pure {a : α} (h : ∀ rest, R [] a rest) : Reads (pure a) R :=
  fun _ => .pure fun rest _ => h rest

theorem nested {room : Nat} {p : (r : Nat) → r < room → Parser α}
    (h : ∀ r hr, Reads (p r hr) R) : Reads (nested room p) R :=
  fun t => .nested fun r hr => h r hr t

theorem bind {p : Parser α} {f : α → Parser β} (hp : Reads p R)
    (hf : ∀ a, Reads (f a) fun used b rest => ∀ before, R before a (used ++ rest) →
      Q (before ++ used) b rest) : Reads (p >>= f) Q := fun t => (hp t).bind hf

end Reads

theorem reads_expect {kind : TokenKind} (hkind : kind ≠ .finish) (what : Expectation) :
    Reads (expect kind what) fun used _ _ => ∃ t, used = [t] ∧ t.kind = kind := by
  refine .peek fun t => ?_
  split
  · rename_i ht
    exact .advance ht hkind (.pure fun _ => ⟨t, rfl, ht⟩)
  · exact .report _

theorem reads_accept {kind : TokenKind} (hkind : kind ≠ .finish) :
    Reads (accept kind) fun used found _ =>
      if found then ∃ t, used = [t] ∧ t.kind = kind else used = [] := by
  refine .peek fun t => ?_
  split
  · rename_i ht
    exact .advance ht hkind (.pure fun _ => ⟨t, rfl, ht⟩)
  · exact .pure fun _ _ => rfl

theorem reads_identifier (what : Expectation) :
    Reads (identifier what) fun used name _ => ∃ t, used = [t] ∧ t.kind = .ident name := by
  refine .peek fun t => ?_
  split
  · rename_i name ht
    exact .advance ht nofun (.pure fun _ => ⟨t, rfl, ht⟩)
  · exact .report _

theorem reads_checkpointName :
    Reads checkpointName fun used name _ => ∃ t, used = [t] ∧ t.kind = .str name := by
  refine .peek fun t => ?_
  split
  · rename_i name ht
    exact .advance ht nofun (.pure fun _ => ⟨t, rfl, ht⟩)
  · exact .report _

end

/-! ## Lists -/

section

variable {item : Parser Expr}

/-- The test of the progress never fails, since what is read before it is passed. -/
theorem separated_outcome
    (hitem : Reads item fun used e _ => Grammar.Expression 1 used e) {s : State}
    (hfinish : s.finish.kind = .finish) :
    Outcome s (fun used es _ => Grammar.Several used es) (separated item s) := by
  have hfirst : ∀ s : State, s.finish.kind = .finish → Outcome s
      (fun used e _ => Grammar.Expression 1 used e) (item s) :=
    fun s hfinish => hitem s.head s hfinish rfl
  fun_induction separated item s with
  | case1 s t hs =>
    have h := hfirst s hfinish
    rw [hs] at h
    exact h.of_none
  | case2 s a t hs hrest | case6 s a t hs comma rest hrest hcomma =>
    have h := hfirst s hfinish
    rw [hs] at h
    exact h.map fun used _ he => .one he
  | case3 s a t hs comma rest hrest hcomma hlength u hmore ih =>
    have h := hfirst s hfinish
    rw [hs] at h
    have hcommaOutcome := Outcome.word hrest
    have hothers := ih (h.finish_eq ▸ hfinish)
    rw [hmore] at hothers
    exact h.andThen (hcommaOutcome.andThen hothers.of_none)
  | case4 s a t hs comma rest hrest hcomma hlength as u hmore ih =>
    have h := hfirst s hfinish
    rw [hs] at h
    have hcommaOutcome := Outcome.word hrest
    have hothers := ih (h.finish_eq ▸ hfinish)
    rw [hmore] at hothers
    refine h.andThen (hcommaOutcome.andThen (hothers.map ?_))
    intro used rest' hes before hbefore ls he
    rw [hbefore]
    exact .more he hcomma hes
  | case5 s a t hs comma rest hrest hcomma hlength =>
    have h := hfirst s hfinish
    rw [hs] at h
    refine h.of_not_passed fun used hused _ => hlength ?_
    rw [hused, hrest, List.length_append, List.length_cons]
    omega

theorem reads_listUpTo {closing : TokenKind} (hclosing : closing ≠ .finish) (what : Expectation)
    (hitem : Reads item fun used e _ => Grammar.Expression 1 used e) :
    Reads (listUpTo closing what item) fun used es _ =>
      ∃ us last, used = us ++ [last] ∧ Grammar.Items us es ∧ last.kind = closing := by
  refine .bind (reads_accept hclosing) fun found => ?_
  cases found with
  | true =>
    refine .pure fun rest before hbefore => ?_
    obtain ⟨t, rfl, ht⟩ := hbefore
    exact ⟨[], t, rfl, .none, ht⟩
  | false =>
    have hseparated : Reads (separated item) fun used es _ => Grammar.Several used es :=
      fun t s hfinish _ => separated_outcome hitem hfinish
    refine .bind hseparated fun es => .bind (reads_expect hclosing what) fun _ => .pure ?_
    rintro rest _ ⟨t, rfl, ht⟩ us hes before hbefore
    obtain rfl : before = [] := hbefore
    exact ⟨us, t, by simp, .some hes, ht⟩

end

end Parser
end Script
end CheckScript
