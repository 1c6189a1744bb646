/-
How high the tree of a script is, and what makes it high.

`levels arm` counts the blocks around the deepest statement; a further condition behind
an `else`, which the tree holds inside the condition before it, counts for `arm`.  So
`levels 0` counts the blocks alone and `levels 1` is the height of the tree.  The two are
tied by the longest chain of further conditions (`height_le`, `arms_le_height`).
-/
import CheckScript.Script.Syntax

namespace CheckScript
namespace Script

def Stmt.isBranch : Stmt → Bool
  | .branch .. => true
  | _ => false

mutual

def levels (arm : Nat) : Stmt → Nat
  | .declare .. | .assign .. | .evaluate .. => 0
  | .branch _ _ body other => max (levelsAll arm body + 1) (levelsOther arm other)
  | .loop _ _ body | .each _ _ _ body | .block _ body | .checkpoint _ _ body =>
    levelsAll arm body + 1

def levelsAll (arm : Nat) : List Stmt → Nat
  | [] => 0
  | s :: ss => max (levels arm s) (levelsAll arm ss)

def levelsOther (arm : Nat) : Option Stmt → Nat
  | none => 0
  | some s => levels arm s + if s.isBranch then arm else 0

end

/- The number of further conditions in the chain that a statement begins. -/
mutual

def chain : Stmt → Nat
  | .branch _ _ _ other => chainOther other
  | _ => 0

def chainOther : Option Stmt → Nat
  | none => 0
  | some s => if s.isBranch then chain s + 1 else 0

end

/- The number of further conditions in the longest chain of a statement. -/
mutual

def arms : Stmt → Nat
  | .declare .. | .assign .. | .evaluate .. => 0
  | .branch _ _ body other => max (chainOther other) (max (armsAll body) (armsOther other))
  | .loop _ _ body | .each _ _ _ body | .block _ body | .checkpoint _ _ body => armsAll body

def armsAll : List Stmt → Nat
  | [] => 0
  | s :: ss => max (arms s) (armsAll ss)

def armsOther : Option Stmt → Nat
  | none => 0
  | some s => arms s

end

namespace Program

def depth (p : Program) : Nat := levelsAll 0 p.stmts

def height (p : Program) : Nat := levelsAll 1 p.stmts

def arms (p : Program) : Nat := armsAll p.stmts

end Program

/-! ## A tree is as high as its longest chain -/

theorem chain_le_arms (s : Stmt) : chain s ≤ arms s := by
  cases s with
  | branch => exact Nat.le_max_left ..
  | _ => exact Nat.zero_le _

mutual

theorem chain_le_levels (s : Stmt) : chain s ≤ levels 1 s := by
  cases s with
  | branch line cond body other =>
    exact Nat.le_trans (chainOther_le_levelsOther other) (Nat.le_max_right ..)
  | _ => exact Nat.zero_le _

theorem chainOther_le_levelsOther (other : Option Stmt) :
    chainOther other ≤ levelsOther 1 other := by
  cases other with
  | none => exact Nat.le_refl 0
  | some s =>
    have hs := chain_le_levels s
    unfold chainOther levelsOther
    split <;> omega

end

mutual

theorem arms_le_levels (s : Stmt) : arms s ≤ levels 1 s := by
  cases s with
  | declare | assign | evaluate => exact Nat.le_refl 0
  | branch line cond body other =>
    have hbody := armsAll_le_levelsAll body
    have hother := armsOther_le_levelsOther other
    have hchain := chainOther_le_levelsOther other
    simp only [arms, levels]
    omega
  | loop _ _ body | each _ _ _ body | block _ body | checkpoint _ _ body =>
    exact Nat.le_succ_of_le (armsAll_le_levelsAll body)

theorem armsAll_le_levelsAll (ss : List Stmt) : armsAll ss ≤ levelsAll 1 ss := by
  cases ss with
  | nil => exact Nat.le_refl 0
  | cons s ss =>
    have hs := arms_le_levels s
    have hss := armsAll_le_levelsAll ss
    simp only [armsAll, levelsAll]
    omega

theorem armsOther_le_levelsOther (other : Option Stmt) : armsOther other ≤ levelsOther 1 other := by
  cases other with
  | none => exact Nat.le_refl 0
  | some s => exact Nat.le_trans (arms_le_levels s) (Nat.le_add_right ..)

end

theorem arms_le_height (p : Program) : p.arms ≤ p.height := armsAll_le_levelsAll p.stmts

/-! ## Blocks and chains bound the height -/

/-- The statements without a block are those without a level. -/
theorem levels_eq_zero {s : Stmt} (h : levels 0 s = 0) (arm : Nat) : levels arm s = 0 := by
  cases s with
  | declare | assign | evaluate => rfl
  | branch =>
    simp only [levels] at h
    omega
  | loop | each | block | checkpoint => exact absurd h (Nat.succ_ne_zero _)

/- A chain of `chain s` conditions stands beside the blocks around it, and every one of
those blocks may stand behind a chain of `m` conditions of its own. -/
mutual

theorem levels_le {m : Nat} (s : Stmt) (h : arms s ≤ m) :
    levels 1 s + m ≤ chain s + max 1 (levels 0 s) * (m + 1) := by
  cases s with
  | declare | assign | evaluate => simp [levels, chain]
  | branch line cond body other =>
    have hbody := levelsAll_le body (m := m) (by simp only [arms] at h; omega)
    have hother := levelsOther_le other (m := m) (by simp only [arms] at h; omega)
    simp only [levels, chain]
    rw [Nat.max_eq_right (show 1 ≤ max (levelsAll 0 body + 1) (levelsOther 0 other) by omega)]
    have hleft := Nat.mul_le_mul_right (m + 1)
      (Nat.le_max_left (levelsAll 0 body + 1) (levelsOther 0 other))
    have hright := Nat.mul_le_mul_right (m + 1)
      (show max 1 (levelsOther 0 other) ≤ max (levelsAll 0 body + 1) (levelsOther 0 other) by omega)
    rw [Nat.add_mul, Nat.one_mul] at hleft
    omega
  | loop _ _ body | each _ _ _ body | block _ body | checkpoint _ _ body =>
    have hbody := levelsAll_le body (m := m) h
    simp only [levels, chain]
    rw [Nat.max_eq_right (Nat.le_add_left ..), Nat.add_mul, Nat.one_mul]
    omega

theorem levelsAll_le {m : Nat} (ss : List Stmt) (h : armsAll ss ≤ m) :
    levelsAll 1 ss ≤ levelsAll 0 ss * (m + 1) := by
  cases ss with
  | nil => exact Nat.zero_le _
  | cons s ss =>
    simp only [armsAll] at h
    have hss := levelsAll_le ss (m := m) (by omega)
    have hs := levels_le s (m := m) (by omega)
    have hchain := chain_le_arms s
    have hleft := Nat.mul_le_mul_right (m + 1) (Nat.le_max_left (levels 0 s) (levelsAll 0 ss))
    have hright := Nat.mul_le_mul_right (m + 1) (Nat.le_max_right (levels 0 s) (levelsAll 0 ss))
    simp only [levelsAll]
    by_cases hzero : levels 0 s = 0
    · rw [levels_eq_zero hzero 1]
      omega
    · rw [Nat.max_eq_right (Nat.one_le_iff_ne_zero.mpr hzero)] at hs
      omega

theorem levelsOther_le {m : Nat} (other : Option Stmt) (h : armsOther other ≤ m) :
    levelsOther 1 other + m ≤ chainOther other + max 1 (levelsOther 0 other) * (m + 1) := by
  cases other with
  | none => simp [levelsOther, chainOther]
  | some s =>
    have hs := levels_le s h
    simp only [levelsOther, chainOther, ite_self, Nat.add_zero]
    split
    · omega
    · rename_i hbranch
      have hchain : chain s = 0 := by
        cases s with
        | branch => exact absurd rfl hbranch
        | _ => rfl
      omega

end

theorem height_le (p : Program) : p.height ≤ p.depth * (p.arms + 1) :=
  levelsAll_le p.stmts (Nat.le_refl _)

end Script
end CheckScript
