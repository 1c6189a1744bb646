/-
What reading on keeps up.

The parser changes its state in few ways: it passes words, it reports a problem with the next
word, and behind a statement it may go back to words that it has had before.  A property of
states that survives these is `Stable`, and the whole parser preserves it, also where it skips
words behind a problem (`Stable.statement`, `Stable.statementsUntil`).
-/
import CheckScript.Script.Parser.Statement

namespace CheckScript
namespace Script

namespace Parser

structure Stable (I : State → Prop) : Prop where
  pass : ∀ {s : State} {t : Token} {rest : List Token}, s.rest = t :: rest → I s →
    I { s with rest := rest }
  report : ∀ {s : State} (problem : TokenKind → Problem), I s →
    I { s with diagnostics := s.diagnostics ++ [⟨s.head.place, problem s.head.kind⟩] }
  back : ∀ {s t : State}, I s → I t → I { t with rest := s.rest }

def Preserves {α : Type} (I : State → Prop) (p : Parser α) : Prop :=
  ∀ s : State, I s → I (p s).2

section

variable {α β : Type} {I : State → Prop}

theorem bind_preserves {p : Parser α} {f : α → Parser β} {s : State}
    (hf : ∀ a, Preserves I (f a)) (h : I (p s).2) : I ((p >>= f) s).2 := by
  rw [bind_apply]
  split
  · rename_i a t hp
    rw [hp] at h
    exact hf a t h
  · rename_i t hp
    rwa [hp] at h

namespace Preserves

theorem pure (a : α) : Preserves I (pure a : Parser α) := fun _ h => h

theorem bind {p : Parser α} {f : α → Parser β} (hp : Preserves I p)
    (hf : ∀ a, Preserves I (f a)) : Preserves I (p >>= f) :=
  fun s hs => bind_preserves hf (hp s hs)

theorem peek : Preserves I peek := fun _ h => h

theorem second : Preserves I second := fun _ h => h

end Preserves

end

theorem skipStatement_suffix (ts : List Token) : skipStatement ts <:+ ts := by
  induction ts with
  | nil => exact List.suffix_refl _
  | cons t rest ih =>
    unfold skipStatement
    split
    · exact List.suffix_cons ..
    iterate 6 exact List.suffix_refl _
    exact ih.trans (List.suffix_cons ..)

namespace Stable

variable {α : Type} {I : State → Prop} (hI : Stable I)

include hI

theorem drop {s : State} (h : I s) (n : Nat) : I { s with rest := s.rest.drop n } := by
  induction n with
  | zero => exact h
  | succ n ih =>
    cases hrest : s.rest.drop n with
    | nil =>
      have hnil : s.rest.drop (n + 1) = s.rest.drop n := by
        rw [hrest, List.drop_eq_nil_iff]
        exact Nat.le_succ_of_le (List.drop_eq_nil_iff.mp hrest)
      rw [hnil]
      exact ih
    | cons t rest =>
      have hsucc : s.rest.drop (n + 1) = rest := by
        rw [← List.drop_drop, hrest, List.drop_one, List.tail_cons]
      rw [hsucc]
      exact hI.pass (s := { s with rest := s.rest.drop n }) hrest ih

theorem suffix {s : State} {rest : List Token} (hrest : rest <:+ s.rest) (h : I s) :
    I { s with rest := rest } := by
  rw [List.suffix_iff_eq_drop.mp hrest]
  exact hI.drop h _

theorem advance : Preserves I advance := by
  intro s h
  unfold Parser.advance
  split
  · exact h
  · rename_i hrest
    exact hI.pass hrest h

theorem reports (problem : TokenKind → Problem) :
    Preserves I (Parser.report problem : Parser α) := fun _ h => hI.report problem h

theorem missing (what : Expectation) : Preserves I (missing what : Parser α) :=
  hI.reports _

theorem expect (kind : TokenKind) (what : Expectation) : Preserves I (expect kind what) := by
  refine .bind .peek fun t => ?_
  split
  · exact .bind hI.advance fun _ => .pure _
  · exact hI.missing what

theorem accept (kind : TokenKind) : Preserves I (accept kind) := by
  refine .bind .peek fun t => ?_
  split
  · exact .bind hI.advance fun _ => .pure _
  · exact .pure _

theorem identifier (what : Expectation) : Preserves I (identifier what) := by
  refine .bind .peek fun t => ?_
  split
  · exact .bind hI.advance fun _ => .pure _
  · exact hI.missing what

theorem checkpointName : Preserves I checkpointName := by
  refine .bind .peek fun t => ?_
  split
  · exact .bind hI.advance fun _ => .pure _
  · exact hI.missing _

theorem nested {room : Nat} {p : (r : Nat) → r < room → Parser α}
    (hp : ∀ r hr, Preserves I (p r hr)) : Preserves I (nested room p) := by
  cases room with
  | zero => exact hI.reports _
  | succ room => exact hp room (Nat.lt_succ_self room)

/-- Behind the first item. -/
theorem separated_behind {p : Parser α} {s : State} (hp : Preserves I p) (h : I (p s).2) :
    I (separated p s).2 := by
  fun_induction separated p s with
  | case1 _ _ hs | case2 _ _ _ hs | case6 _ _ _ hs => rwa [hs] at h
  | case5 _ _ _ hs => rwa [hs] at h
  | case3 _ _ _ hs _ _ hrest _ _ _ hmore ih | case4 _ _ _ hs _ _ hrest _ _ _ _ hmore ih =>
    rw [hs] at h
    have hend := ih (hp _ (hI.pass hrest h))
    rwa [hmore] at hend

theorem separated {p : Parser α} (hp : Preserves I p) : Preserves I (separated p) :=
  fun s h => hI.separated_behind hp (hp s h)

theorem listUpTo (closing : TokenKind) (what : Expectation) {p : Parser α} (hp : Preserves I p) :
    Preserves I (listUpTo closing what p) := by
  refine .bind (hI.accept closing) fun found => ?_
  cases found with
  | true => exact .pure _
  | false => exact .bind (hI.separated hp) fun _ => .bind (hI.expect closing what) fun _ => .pure _

theorem arm {cond : Parser Expr} {body : Parser (List Stmt)} (hcond : Preserves I cond)
    (hbody : Preserves I body) : Preserves I (arm cond body) :=
  .bind hI.advance fun _ => .bind hcond fun _ => .bind hbody fun _ =>
    .bind (hI.accept _) fun _ => .pure _

/-- Behind the first arm. -/
theorem conditional_behind {cond : Parser Expr} {body : Parser (List Stmt)} {s : State}
    (hcond : Preserves I cond) (hbody : Preserves I body) (h : I (Parser.arm cond body s).2) :
    I (conditional cond body s).2 := by
  fun_induction conditional cond body s with
  | case1 _ _ hs | case2 _ _ _ _ _ hs | case5 _ _ _ _ _ hs => rwa [hs] at h
  | case3 _ _ _ _ t hs _ _ _ hother ih | case4 _ _ _ _ t hs _ _ _ _ hother ih =>
    rw [hs] at h
    have hend := ih (hI.arm hcond hbody t h)
    rwa [hother] at hend
  | case6 _ _ _ _ t hs _ _ hother | case7 _ _ _ _ t hs _ _ _ hother =>
    rw [hs] at h
    have hend := hbody t h
    rwa [hother] at hend

theorem conditional {cond : Parser Expr} {body : Parser (List Stmt)} (hcond : Preserves I cond)
    (hbody : Preserves I body) : Preserves I (conditional cond body) :=
  fun s h => hI.conditional_behind hcond hbody (hI.arm hcond hbody s h)

theorem recover {s : State} (h : I s) : I (recover s) := hI.suffix (skipStatement_suffix _) h

theorem onward {s t : State} (hs : I s) (ht : I t) : I (onward s t) := by
  unfold Parser.onward
  split
  · exact ht
  · exact hI.back (hI.drop hs 1) ht

theorem statementsUntil (closing : Option TokenKind) {p : Parser Stmt} (hp : Preserves I p)
    {s : State} (h : I s) : I (statementsUntil closing p s).2 := by
  fun_induction Parser.statementsUntil closing p s with
  | case1 | case2 => exact h
  | case3 s _ _ _ _ hs _ _ ih =>
    have ht := hp s h
    rw [hs] at ht
    exact ih (hI.onward h ht)
  | case4 s _ _ _ hs _ ih =>
    have ht := hp s h
    rw [hs] at ht
    exact ih (hI.onward h (hI.recover ht))

end Stable

/-! ## The grammar -/

namespace Stable

variable {I : State → Prop}

mutual

theorem expressionAbove (hI : Stable I) (room min : Nat) :
    Preserves I (expressionAbove room min) := by
  rw [Parser.expressionAbove]
  exact .bind (hI.unary room) fun left => hI.operators room min left
termination_by 4 * room + 3
decreasing_by all_goals omega

theorem operators (hI : Stable I) (room min : Nat) (left : Expr) :
    Preserves I (operators room min left) := by
  rw [Parser.operators]
  refine .bind .peek fun t => ?_
  split
  · exact .pure _
  · split
    · exact .pure _
    · exact hI.nested fun r hr => .bind hI.advance fun _ =>
        .bind (hI.expressionAbove r _) fun right => hI.operators r min _
termination_by 4 * room
decreasing_by all_goals omega

theorem unary (hI : Stable I) (room : Nat) : Preserves I (unary room) := by
  rw [Parser.unary]
  refine .bind .peek fun t => ?_
  split
  · exact hI.nested fun r hr => .bind hI.advance fun _ => .bind (hI.unary r) fun _ => .pure _
  · exact .bind (hI.primary room) fun e => hI.accesses room e
termination_by 4 * room + 2
decreasing_by all_goals omega

theorem accesses (hI : Stable I) (room : Nat) (e : Expr) : Preserves I (accesses room e) := by
  rw [Parser.accesses]
  refine .bind .peek fun t => ?_
  split
  · refine hI.nested fun r hr => .bind hI.advance fun _ => .bind (hI.identifier _) fun name =>
      .bind (hI.accept _) fun found => ?_
    cases found with
    | true => exact .bind (hI.listUpTo _ _ (hI.expressionAbove r 0)) fun args => hI.accesses r _
    | false => exact hI.accesses r _
  · exact hI.nested fun r hr => .bind hI.advance fun _ => .bind (hI.expressionAbove r 0) fun i =>
      .bind (hI.expect _ _) fun _ => hI.accesses r _
  · refine hI.nested fun r hr => ?_
    split
    · exact .bind hI.advance fun _ => .bind (hI.listUpTo _ _ (hI.expressionAbove r 0)) fun args =>
        hI.accesses r _
    · exact hI.reports _
  · exact .pure _
termination_by 4 * room
decreasing_by all_goals omega

theorem primary (hI : Stable I) (room : Nat) : Preserves I (primary room) := by
  rw [Parser.primary]
  refine .bind .peek fun t => ?_
  split
  iterate 6 exact .bind hI.advance fun _ => .pure _
  · exact hI.nested fun r hr => .bind hI.advance fun _ => .bind (hI.expressionAbove r 0) fun e =>
      .bind (hI.expect _ _) fun _ => .pure _
  · exact hI.nested fun r hr => .bind hI.advance fun _ =>
      .bind (hI.listUpTo _ _ (hI.expressionAbove r 0)) fun _ => .pure _
  · exact hI.missing _
termination_by 4 * room + 1
decreasing_by all_goals omega

end

theorem expression (hI : Stable I) (room : Nat) : Preserves I (expression room) :=
  hI.expressionAbove room 0

/-- An expression with a semicolon behind it, as a statement of either kind. -/
theorem valued (hI : Stable I) (room : Nat) (what : Expectation) (make : Expr → Stmt) :
    Preserves I (do
      let e ← Parser.expression room
      Parser.expect .semicolon what
      return make e) :=
  .bind (hI.expression room) fun _ => .bind (hI.expect _ _) fun _ => .pure _

mutual

theorem statement (hI : Stable I) (room : Nat) : Preserves I (statement room) := by
  rw [Parser.statement]
  refine .bind .peek fun t => ?_
  cases t.kind with
  | letWord =>
    exact .bind hI.advance fun _ => .bind (hI.identifier _) fun name =>
      .bind (hI.expect _ _) fun _ => hI.valued room _ _
  | ifWord => exact hI.conditional (hI.expression room) (hI.block room)
  | whileWord =>
    exact .bind hI.advance fun _ => .bind (hI.expression room) fun _ =>
      .bind (hI.block room) fun _ => .pure _
  | forWord =>
    exact .bind hI.advance fun _ => .bind (hI.identifier _) fun _ => .bind (hI.expect _ _) fun _ =>
      .bind (hI.expression room) fun _ => .bind (hI.block room) fun _ => .pure _
  | checkpointWord =>
    exact .bind hI.advance fun _ => .bind hI.checkpointName fun _ =>
      .bind (hI.block room) fun _ => .pure _
  | leftBrace => exact .bind (hI.block room) fun _ => .pure _
  | ident name =>
    refine .bind .second fun next => ?_
    split
    · exact .bind hI.advance fun _ => .bind hI.advance fun _ => hI.valued room _ _
    · exact hI.valued room _ _
  | _ => exact hI.valued room _ _
termination_by 2 * room + 1
decreasing_by all_goals omega

theorem block (hI : Stable I) (room : Nat) : Preserves I (block room) := by
  rw [Parser.block]
  refine .bind (hI.expect _ _) fun _ => hI.nested fun r hr => ?_
  have hstatements : Preserves I fun s =>
      (some (Parser.statementsUntil (some .rightBrace) (Parser.statement r) s).1,
        (Parser.statementsUntil (some .rightBrace) (Parser.statement r) s).2) :=
    fun _ h => hI.statementsUntil _ (hI.statement r) h
  exact .bind hstatements fun _ => .bind (hI.expect _ _) fun _ => .pure _
termination_by 2 * room
decreasing_by all_goals omega

end

end Stable

end Parser
end Script
end CheckScript
