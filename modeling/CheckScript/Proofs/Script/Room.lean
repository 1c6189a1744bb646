/-
Room for nesting is all that a parser loses when it has less of it.

`Limits p q` ties a parser to the same parser with more room: it either takes the very same
course or reports that the script is too deep.  Every rule of the grammar keeps this up, so
that a script without that report is read as if there were no limit (`statement_limits`).
-/
import CheckScript.Proofs.Script.Invariant

namespace CheckScript
namespace Script

def Diagnostic.IsTooDeep (d : Diagnostic) : Prop := ∃ found, d.problem = .tooDeep found

namespace Parser

def State.TooDeep (s : State) : Prop := ∃ d ∈ s.diagnostics, d.IsTooDeep

/-- Whatever is reported stays reported. -/
def Keeps {α : Type} (p : Parser α) : Prop := ∀ s : State, s.TooDeep → (p s).2.TooDeep

structure Limits {α : Type} (p q : Parser α) : Prop where
  agree : ∀ s, ¬(p s).2.TooDeep → q s = p s
  keep : Keeps p

theorem deep_stays : Stable State.TooDeep where
  pass _ h := h
  report _ := fun ⟨d, hd, hdeep⟩ => ⟨d, List.mem_append_left _ hd, hdeep⟩
  back _ h := h

theorem onward_tooDeep (s : State) {t : State} (h : t.TooDeep) : (onward s t).TooDeep := by
  unfold onward
  split <;> exact h

/-! ## Rules for less room -/

namespace Limits

variable {α β : Type}

theorem refl {p : Parser α} (h : Keeps p) : Limits p p := ⟨fun _ _ => rfl, h⟩

theorem pure (a : α) : Limits (pure a : Parser α) (pure a) := refl (Preserves.pure a)

theorem bind {p q : Parser α} {f g : α → Parser β} (hp : Limits p q)
    (hf : ∀ a, Limits (f a) (g a)) : Limits (p >>= f) (q >>= g) := by
  refine ⟨fun s h => ?_, Preserves.bind hp.keep fun a => (hf a).keep⟩
  have hq : q s = p s := hp.agree s fun hs => h (bind_preserves (fun a => (hf a).keep) hs)
  rw [bind_apply] at h ⊢
  rw [bind_apply, hq]
  split
  · rename_i a t hs
    rw [hs] at h
    exact (hf a).agree t h
  · rfl

/-- The same parser comes first on both sides. -/
theorem next {p : Parser α} {f g : α → Parser β} (hp : Keeps p)
    (hf : ∀ a, Limits (f a) (g a)) : Limits (p >>= f) (p >>= g) := bind (refl hp) hf

/-- Where no level is left, the report is made. -/
theorem nested {room room' : Nat} (hroom : room ≤ room') {p : (r : Nat) → r < room → Parser α}
    {q : (r : Nat) → r < room' → Parser α}
    (h : ∀ r r' (hr : r < room) (hr' : r' < room'), r ≤ r' → Limits (p r hr) (q r' hr')) :
    Limits (nested room p) (nested room' q) := by
  cases room with
  | zero =>
    refine ⟨fun s hdeep => absurd ?_ hdeep, deep_stays.reports _⟩
    exact ⟨_, List.mem_append_right _ (List.mem_singleton.mpr rfl), _, rfl⟩
  | succ r =>
    obtain ⟨r', rfl⟩ := Nat.exists_eq_add_of_lt hroom
    exact h r (r + r') (Nat.lt_succ_self r) (Nat.lt_succ_self _) (Nat.le_add_right ..)

theorem separated {p q : Parser α} (h : Limits p q) :
    Limits (Parser.separated p) (Parser.separated q) := by
  have hfirst : ∀ s, ¬(Parser.separated p s).2.TooDeep → q s = p s := fun s hdeep =>
    h.agree s fun hs => hdeep (deep_stays.separated_behind h.keep hs)
  refine ⟨fun s hdeep => ?_, fun s hs => deep_stays.separated_behind h.keep (h.keep s hs)⟩
  have hq := hfirst s hdeep
  fun_induction Parser.separated p s with
  | case1 s t hs => rw [Parser.separated, hq, hs]
  | case2 s a t hs hrest =>
    rw [Parser.separated, hq, hs]
    simp only [hrest]
  | case3 s a t hs comma rest hrest hcomma hlength u hmore ih
  | case4 s a t hs comma rest hrest hcomma hlength as u hmore ih =>
    rw [hmore] at ih
    rw [Parser.separated, hq, hs]
    simp only [hrest]
    rw [if_pos hcomma, if_pos hlength, ih hdeep (hfirst _ (by rwa [hmore]))]
  | case5 s a t hs comma rest hrest hcomma hlength =>
    rw [Parser.separated, hq, hs]
    simp only [hrest]
    rw [if_pos hcomma, if_neg hlength]
  | case6 s a t hs comma rest hrest hcomma =>
    rw [Parser.separated, hq, hs]
    simp only [hrest]
    rw [if_neg hcomma]

theorem listUpTo (closing : TokenKind) (what : Expectation) {p q : Parser α} (h : Limits p q) :
    Limits (listUpTo closing what p) (listUpTo closing what q) := by
  refine next (deep_stays.accept closing) fun found => ?_
  cases found with
  | true => exact pure _
  | false => exact bind h.separated fun _ => next (deep_stays.expect closing what) fun _ => pure _

theorem arm {cond cond' : Parser Expr} {body body' : Parser (List Stmt)} (hcond : Limits cond cond')
    (hbody : Limits body body') : Limits (arm cond body) (arm cond' body') :=
  next deep_stays.advance fun _ => bind hcond fun _ => bind hbody fun _ =>
    next (deep_stays.accept _) fun _ => pure _

theorem conditional {cond cond' : Parser Expr} {body body' : Parser (List Stmt)}
    (hcond : Limits cond cond') (hbody : Limits body body') :
    Limits (conditional cond body) (conditional cond' body') := by
  have harm := hcond.arm hbody
  have hfirst : ∀ s, ¬(Parser.conditional cond body s).2.TooDeep →
      Parser.arm cond' body' s = Parser.arm cond body s := fun s hdeep =>
    harm.agree s fun hs => hdeep (deep_stays.conditional_behind hcond.keep hbody.keep hs)
  refine ⟨fun s hdeep => ?_, fun s hs =>
    deep_stays.conditional_behind hcond.keep hbody.keep (harm.keep s hs)⟩
  have harms := hfirst s hdeep
  fun_induction Parser.conditional cond body s with
  | case1 s t hs => rw [Parser.conditional, harms, hs]
  | case2 s line c b t hs => rw [Parser.conditional, harms, hs]
  | case3 s line c b t hs hif hlength u hother ih
  | case4 s line c b t hs hif hlength other u hother ih =>
    rw [hother] at ih
    rw [Parser.conditional, harms, hs]
    simp only
    rw [if_pos hif, if_pos hlength, ih hdeep (hfirst _ (by rwa [hother]))]
  | case5 s line c b t hs hif hlength =>
    rw [Parser.conditional, harms, hs]
    simp only
    rw [if_pos hif, if_neg hlength]
  | case6 s line c b t hs hif u hother | case7 s line c b t hs hif stmts u hother =>
    rw [Parser.conditional, harms, hs]
    simp only
    rw [if_neg hif, hbody.agree t (by rwa [hother]), hother]

end Limits

theorem statementsUntil_limits {closing : Option TokenKind} {p q : Parser Stmt} (h : Limits p q)
    (s : State) (hdeep : ¬(statementsUntil closing p s).2.TooDeep) :
    statementsUntil closing q s = statementsUntil closing p s := by
  have hfirst : ∀ s t, ¬(statementsUntil closing p (onward s t)).2.TooDeep → ¬t.TooDeep :=
    fun s t hend ht => hend (deep_stays.statementsUntil _ h.keep (onward_tooDeep s ht))
  fun_induction statementsUntil closing p s with
  | case1 s hs => rw [statementsUntil, dif_pos hs]
  | case2 s hs hclosing => rw [statementsUntil, dif_neg hs, if_pos hclosing]
  | case3 s hs hclosing stmt t hst _ r ih =>
    have hq := h.agree s (by rw [hst]; exact hfirst s t hdeep)
    rw [statementsUntil, dif_neg hs, if_neg hclosing, hq, hst]
    simp only
    rw [ih hdeep]
  | case4 s hs hclosing t hst _ ih =>
    have hq := h.agree s (by rw [hst]; exact hfirst s (recover t) hdeep)
    rw [statementsUntil, dif_neg hs, if_neg hclosing, hq, hst]
    simp only
    rw [ih hdeep]

/-! ## The grammar -/

mutual

theorem expressionAbove_limits {room room' : Nat} (h : room ≤ room') (min : Nat) :
    Limits (expressionAbove room min) (expressionAbove room' min) := by
  rw [expressionAbove, expressionAbove]
  exact .bind (unary_limits h) fun left => operators_limits h min left
termination_by 4 * room + 3
decreasing_by all_goals omega

theorem operators_limits {room room' : Nat} (h : room ≤ room') (min : Nat)
    (left : Expr) :
    Limits (operators room min left) (operators room' min left) := by
  rw [operators, operators]
  refine .next Preserves.peek fun t => ?_
  split
  · exact .pure left
  · split
    · exact .pure left
    · refine .nested h fun r r' _ _ hr => .next deep_stays.advance fun _ => ?_
      exact .bind (expressionAbove_limits hr _) fun right => operators_limits hr min _
termination_by 4 * room
decreasing_by all_goals omega

theorem unary_limits {room room' : Nat} (h : room ≤ room') :
    Limits (unary room) (unary room') := by
  rw [unary, unary]
  refine .next Preserves.peek fun t => ?_
  split
  · refine .nested h fun r r' _ _ hr => .next deep_stays.advance fun _ => ?_
    exact .bind (unary_limits hr) fun operand => .pure _
  · exact .bind (primary_limits h) fun e => accesses_limits h e
termination_by 4 * room + 2
decreasing_by all_goals omega

theorem accesses_limits {room room' : Nat} (h : room ≤ room') (e : Expr) :
    Limits (accesses room e) (accesses room' e) := by
  rw [accesses, accesses]
  refine .next Preserves.peek fun t => ?_
  cases t.kind with
  | dot =>
    refine .nested h fun r r' _ _ hr => .next deep_stays.advance fun _ => ?_
    refine .next (deep_stays.identifier _) fun name => ?_
    refine .next (deep_stays.accept _) fun found => ?_
    split
    · exact .bind (.listUpTo _ _ (expressionAbove_limits hr 0)) fun args => accesses_limits hr _
    · exact accesses_limits hr _
  | leftBracket =>
    refine .nested h fun r r' _ _ hr => .next deep_stays.advance fun _ => ?_
    refine .bind (expressionAbove_limits hr 0) fun index => ?_
    refine .next (deep_stays.expect _ _) fun _ => ?_
    exact accesses_limits hr _
  | leftParen =>
    refine .nested h fun r r' _ _ hr => ?_
    split
    · refine .next deep_stays.advance fun _ => ?_
      exact .bind (.listUpTo _ _ (expressionAbove_limits hr 0)) fun args => accesses_limits hr _
    · exact .refl (deep_stays.reports _)
  | _ => exact .pure e
termination_by 4 * room
decreasing_by all_goals omega

theorem primary_limits {room room' : Nat} (h : room ≤ room') :
    Limits (primary room) (primary room') := by
  rw [primary, primary]
  refine .next Preserves.peek fun t => ?_
  cases t.kind with
  | leftParen =>
    refine .nested h fun r r' _ _ hr => .next deep_stays.advance fun _ => ?_
    refine .bind (expressionAbove_limits hr 0) fun e => ?_
    exact .next (deep_stays.expect _ _) fun _ => .pure e
  | leftBracket =>
    refine .nested h fun r r' _ _ hr => .next deep_stays.advance fun _ => ?_
    exact .bind (.listUpTo _ _ (expressionAbove_limits hr 0)) fun items => .pure _
  | int | str | trueWord | falseWord | nullWord | ident =>
    exact .next deep_stays.advance fun _ => .pure _
  | _ => exact .refl (deep_stays.missing _)
termination_by 4 * room + 1
decreasing_by all_goals omega

end

theorem expression_limits {room room' : Nat} (h : room ≤ room') :
    Limits (expression room) (expression room') :=
  expressionAbove_limits h 0

mutual

theorem statement_limits {room room' : Nat} (h : room ≤ room') :
    Limits (statement room) (statement room') := by
  rw [statement, statement]
  refine .next Preserves.peek fun t => ?_
  cases t.kind with
  | letWord =>
    refine .next deep_stays.advance fun _ => .next (deep_stays.identifier _) fun name => ?_
    refine .next (deep_stays.expect _ _) fun _ => .bind (expression_limits h) fun value => ?_
    exact .next (deep_stays.expect _ _) fun _ => .pure _
  | ifWord => exact .conditional (expression_limits h) (block_limits h)
  | whileWord =>
    refine .next deep_stays.advance fun _ => .bind (expression_limits h) fun cond => ?_
    exact .bind (block_limits h) fun body => .pure _
  | forWord =>
    refine .next deep_stays.advance fun _ => .next (deep_stays.identifier _) fun name => ?_
    refine .next (deep_stays.expect _ _) fun _ => .bind (expression_limits h) fun items => ?_
    exact .bind (block_limits h) fun body => .pure _
  | checkpointWord =>
    refine .next deep_stays.advance fun _ => .next deep_stays.checkpointName fun name => ?_
    exact .bind (block_limits h) fun body => .pure _
  | leftBrace => exact .bind (block_limits h) fun body => .pure _
  | ident name =>
    refine .next Preserves.second fun kind => ?_
    split
    · refine .next deep_stays.advance fun _ => .next deep_stays.advance fun _ => ?_
      exact .bind (expression_limits h) fun value => .next (deep_stays.expect _ _) fun _ => .pure _
    · exact .bind (expression_limits h) fun e => .next (deep_stays.expect _ _) fun _ => .pure _
  | _ => exact .bind (expression_limits h) fun e => .next (deep_stays.expect _ _) fun _ => .pure _
termination_by 2 * room + 1
decreasing_by all_goals omega

theorem block_limits {room room' : Nat} (h : room ≤ room') :
    Limits (block room) (block room') := by
  rw [block, block]
  refine .next (deep_stays.expect _ _) fun _ => .nested h fun r r' _ _ hr => ?_
  refine .bind ?_ fun stmts => .next (deep_stays.expect _ _) fun _ => .pure stmts
  have hstatement := statement_limits hr
  refine ⟨fun s hdeep => ?_, fun s hs => deep_stays.statementsUntil _ hstatement.keep hs⟩
  simp only [statementsUntil_limits hstatement s hdeep]
termination_by 2 * room
decreasing_by all_goals omega

end

end Parser
end Script
end CheckScript
