/-
The nesting limit of scripts.

`Yields p P` says that every value the parser `p` gives has the property `P`.  With room for
`r` levels a statement holds at most `r` blocks inside one another (`statement_levels`), so
that no tree has more than `maxNesting` (`depth_tree_le`).
-/
import CheckScript.Proofs.Script.Chain
import CheckScript.Proofs.Script.Compile
import CheckScript.Proofs.Script.Room

namespace CheckScript
namespace Script
namespace Parser

def Yields {α : Type} (p : Parser α) (P : α → Prop) : Prop :=
  ∀ ⦃s : State⦄ ⦃a : α⦄ ⦃t : State⦄, p s = (some a, t) → P a

namespace Yields

variable {α β : Type} {P : α → Prop} {Q : β → Prop}

theorem trivial (p : Parser α) : Yields p fun _ => True := fun _ _ _ _ => True.intro

theorem pure {a : α} (h : P a) : Yields (pure a) P := by
  intro s b t hb
  obtain ⟨rfl, -⟩ := Prod.mk.inj hb |>.imp_left Option.some.inj
  exact h

theorem bind {p : Parser α} {f : α → Parser β} (hp : Yields p P)
    (hf : ∀ a, P a → Yields (f a) Q) : Yields (p >>= f) Q := by
  intro s b u h
  rw [bind_apply] at h
  split at h
  · rename_i a t hs
    exact hf a (hp hs) h
  · exact nomatch h

/-- A parser whose value does not matter comes first. -/
theorem next {p : Parser α} {f : α → Parser β} (hf : ∀ a, Yields (f a) Q) :
    Yields (p >>= f) Q := bind (trivial p) fun a _ => hf a

theorem report (problem : TokenKind → Problem) : Yields (report problem) P :=
  fun _ _ _ h => nomatch h

end Yields

theorem statementsUntil_levels {room : Nat} {closing : Option TokenKind} {p : Parser Stmt}
    (hp : Yields p fun s => levels 0 s ≤ room) (s : State) :
    levelsAll 0 (statementsUntil closing p s).1 ≤ room := by
  fun_induction statementsUntil closing p s with
  | case1 => exact Nat.zero_le _
  | case2 => exact Nat.zero_le _
  | case3 s _ _ stmt t hs _ _ ih => exact Nat.max_le.mpr ⟨hp hs, ih⟩
  | case4 _ _ _ _ _ _ ih => exact ih

theorem conditional_levels {room : Nat} {cond : Parser Expr} {body : Parser (List Stmt)}
    (hbody : Yields body fun ss => levelsAll 0 ss < room) :
    Yields (conditional cond body) fun s => levels 0 s ≤ room := by
  have harm : Yields (arm cond body) fun a => levelsAll 0 a.2.2.1 < room :=
    .next fun _ => .next fun _ => .bind hbody fun _ hb => .next fun _ => .pure hb
  intro s stmt u h
  fun_induction conditional cond body s generalizing stmt u with
  | case1 | case3 | case5 | case6 => cases h
  | case2 _ _ _ _ _ hs =>
    obtain rfl := Option.some.inj (Prod.mk.inj h).1
    exact Nat.max_le.mpr ⟨harm hs, Nat.zero_le _⟩
  | case4 _ _ _ _ _ hs _ _ other _ hother ih =>
    obtain rfl := Option.some.inj (Prod.mk.inj h).1
    have hlevels := ih hother
    refine Nat.max_le.mpr ⟨harm hs, ?_⟩
    rwa [levelsOther, ite_self]
  | case7 _ _ _ _ _ hs _ _ _ hother =>
    obtain rfl := Option.some.inj (Prod.mk.inj h).1
    exact Nat.max_le.mpr ⟨harm hs, hbody hother⟩

theorem statement_levels_of_block {room : Nat}
    (hblock : Yields (block room) fun ss => levelsAll 0 ss < room) :
    Yields (statement room) fun s => levels 0 s ≤ room := by
  rw [statement]
  refine .next fun t => ?_
  cases t.kind with
  | letWord =>
    exact .next fun _ => .next fun _ => .next fun _ => .next fun _ => .next fun _ =>
      .pure (Nat.zero_le _)
  | ifWord => exact conditional_levels hblock
  | whileWord => exact .next fun _ => .next fun _ => .bind hblock fun _ hbody => .pure hbody
  | forWord =>
    exact .next fun _ => .next fun _ => .next fun _ => .next fun _ => .bind hblock fun _ hbody =>
      .pure hbody
  | checkpointWord => exact .next fun _ => .next fun _ => .bind hblock fun _ hbody => .pure hbody
  | leftBrace => exact .bind hblock fun _ hbody => .pure hbody
  | ident =>
    refine .next fun _ => ?_
    split
    · exact .next fun _ => .next fun _ => .next fun _ => .next fun _ => .pure (Nat.zero_le _)
    · exact .next fun _ => .next fun _ => .pure (Nat.zero_le _)
  | _ => exact .next fun _ => .next fun _ => .pure (Nat.zero_le _)

/-- A block is read only where a level is left, and its statements have one less. -/
theorem block_levels (room : Nat) : Yields (block room) fun ss => levelsAll 0 ss < room := by
  induction room with
  | zero =>
    rw [block]
    exact .next fun _ => .report _
  | succ room ih =>
    rw [block]
    refine .next fun _ => ?_
    refine .bind (P := fun ss => levelsAll 0 ss ≤ room) ?_ fun _ h => .next fun _ =>
      .pure (Nat.lt_succ_of_le h)
    intro s ss t h
    obtain rfl := Option.some.inj (Prod.mk.inj h).1
    exact statementsUntil_levels (statement_levels_of_block ih) s

theorem statement_levels (room : Nat) : Yields (statement room) fun s => levels 0 s ≤ room :=
  statement_levels_of_block (block_levels room)

end Parser

/-! ## Trees of scripts -/

/-- The tree of a script when `room` levels may be used. -/
def treeWithin (room : Nat) (text : String) : Program :=
  ⟨(Parser.statementsUntil none (Parser.statement room) (.ofTokens (tokenize text).1)).1⟩

theorem treeWithin_maxNesting (text : String) : treeWithin maxNesting text = tree text := rfl

theorem depth_treeWithin_le (room : Nat) (text : String) : (treeWithin room text).depth ≤ room :=
  Parser.statementsUntil_levels (Parser.statement_levels room) _

theorem depth_tree_le (text : String) : (tree text).depth ≤ maxNesting :=
  depth_treeWithin_le maxNesting text

/-- A tree that would be deeper with more room is turned down for that. -/
theorem tooDeep_of_depth {text : String} {room : Nat}
    (h : maxNesting < (treeWithin room text).depth) :
    ∃ d ∈ (parse (tokenize text).1).2, d.IsTooDeep := by
  have hroom : maxNesting ≤ room := Nat.le_of_lt (Nat.lt_of_lt_of_le h (depth_treeWithin_le ..))
  by_cases hdeep : ∃ d ∈ (parse (tokenize text).1).2, d.IsTooDeep
  · exact hdeep
  · have hsame : treeWithin room text = tree text := by
      rw [← treeWithin_maxNesting]
      unfold treeWithin
      rw [Parser.statementsUntil_limits (Parser.statement_limits hroom) _ hdeep]
    rw [hsame] at h
    exact absurd h (Nat.not_lt.mpr (depth_tree_le text))

theorem height_tree_le (text : String) :
    (tree text).height ≤ maxNesting * ((tree text).arms + 1) :=
  Nat.le_trans (height_le _) (Nat.mul_le_mul_right _ (depth_tree_le text))

/-! ## The limit -/

/-- The trees of any scripts have a common bound if and only if the chains of further
conditions in those scripts have one.  Blocks are limited, and scripts with deeper ones are
turned down for that, so that a tree without further conditions is no higher than the limit. -/
theorem nesting_limit (scripts : String → Prop) :
    ((∃ bound, ∀ text, scripts text → (tree text).height ≤ bound) ↔
      ∃ most, ∀ text, scripts text → (tree text).arms ≤ most) ∧
    ∀ text,
      (∀ p, compile text = .ok p → p = tree text) ∧
      (tree text).depth ≤ maxNesting ∧
      (tree text).height ≤ maxNesting * ((tree text).arms + 1) ∧
      ∀ room, maxNesting < (treeWithin room text).depth →
        ∃ ds, compile text = .error ds ∧ ∃ d ∈ ds, d.IsTooDeep := by
  refine ⟨⟨?_, ?_⟩, fun text =>
    ⟨fun _ h => (clean_of_compile h).2.2, depth_tree_le text, height_tree_le text,
      fun room h => ?_⟩⟩
  · rintro ⟨bound, hbound⟩
    exact ⟨bound, fun text h => Nat.le_trans (arms_le_height _) (hbound text h)⟩
  · rintro ⟨most, hmost⟩
    refine ⟨maxNesting * (most + 1), fun text h => Nat.le_trans (height_tree_le text) ?_⟩
    exact Nat.mul_le_mul_left _ (Nat.succ_le_succ (hmost text h))
  · obtain ⟨d, hd, hdeep⟩ := tooDeep_of_depth h
    obtain ⟨ds, hcompile, hds⟩ := compile_of_mem (List.mem_append_right _ hd)
    exact ⟨ds, hcompile, d, hds, hdeep⟩

/-- There is no bound on the trees of all scripts that compile: a chain of conditions is as
high as it is long. -/
theorem height_unbounded :
    ¬∃ bound, ∀ text p, compile text = .ok p → p.height ≤ bound := by
  rintro ⟨bound, hbound⟩
  obtain ⟨stmt, hcompile, hchain⟩ := compile_chainText (bound + 1)
  have hheight : chain stmt ≤ Program.height ⟨[stmt]⟩ :=
    Nat.le_trans (chain_le_levels stmt) (Nat.le_max_left ..)
  have hle := hbound _ _ hcompile
  omega

end Script
end CheckScript
