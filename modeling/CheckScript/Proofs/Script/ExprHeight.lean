/-
How high the expressions of a script are.

With room for `r` levels a chain of operators or accesses has at most `r` links.  Its first part
may be high already, since a chain gives its levels back.  What stands between the links has one
level less and is bounded by the square of `r`, so that an expression is never higher than the
square of `r + 1` (`expressionAbove_height`).
-/
import CheckScript.Proofs.Script.Nesting

namespace CheckScript
namespace Script

mutual

/-- The height of the tree.  An expression without parts counts for one. -/
def Expr.height : Expr → Nat
  | .int .. | .str .. | .bool .. | .null .. | .ident .. => 1
  | .list _ items | .call _ _ items => heightAll items + 1
  | .unary _ _ e | .field _ e _ => e.height + 1
  | .binary _ _ left right | .index _ left right => max left.height right.height + 1
  | .method _ object _ args => max object.height (heightAll args) + 1

def heightAll : List Expr → Nat
  | [] => 0
  | e :: es => max e.height (heightAll es)

end

/- Every expression in a tree: in `insideAll es` are those of the list and their parts. -/
mutual

def Expr.inside : Expr → List Expr
  | .int .. | .str .. | .bool .. | .null .. | .ident .. => []
  | .list _ items | .call _ _ items => insideAll items
  | .unary _ _ e | .field _ e _ => e :: e.inside
  | .binary _ _ left right | .index _ left right =>
    left :: (left.inside ++ right :: right.inside)
  | .method _ object _ args => object :: (object.inside ++ insideAll args)

def insideAll : List Expr → List Expr
  | [] => []
  | e :: es => e :: (e.inside ++ insideAll es)

end

/- The expressions that are no parts of others. -/
mutual

def Stmt.exprs : Stmt → List Expr
  | .declare _ _ e | .assign _ _ e | .evaluate _ e => [e]
  | .branch _ cond body other => cond :: (stmtExprs body ++ otherExprs other)
  | .loop _ e body | .each _ _ e body => e :: stmtExprs body
  | .block _ body | .checkpoint _ _ body => stmtExprs body

def stmtExprs : List Stmt → List Expr
  | [] => []
  | s :: ss => s.exprs ++ stmtExprs ss

def otherExprs : Option Stmt → List Expr
  | none => []
  | some s => s.exprs

end

/-- Every expression of a program. -/
def Program.exprs (p : Program) : List Expr := insideAll (stmtExprs p.stmts)

theorem heightAll_le {es : List Expr} {n : Nat} :
    heightAll es ≤ n ↔ ∀ e ∈ es, e.height ≤ n := by
  induction es with
  | nil => exact ⟨fun _ => List.forall_mem_nil _, fun _ => Nat.zero_le _⟩
  | cons e es ih => rw [heightAll, Nat.max_le, ih, List.forall_mem_cons]

mutual

theorem Expr.inside_height (e : Expr) : ∀ part ∈ e.inside, part.height ≤ e.height := by
  cases e with
  | int | str | bool | null | ident => exact List.forall_mem_nil _
  | list _ items | call _ _ items =>
    exact fun part h => Nat.le_succ_of_le (insideAll_height items part h)
  | unary _ _ e | field _ e _ =>
    refine List.forall_mem_cons.mpr ⟨Nat.le_succ _, fun part h => ?_⟩
    exact Nat.le_succ_of_le (e.inside_height part h)
  | binary _ _ left right | index _ left right =>
    have hleft : left.height ≤ max left.height right.height + 1 := by omega
    have hright : right.height ≤ max left.height right.height + 1 := by omega
    refine List.forall_mem_cons.mpr ⟨hleft, List.forall_mem_append.mpr ⟨fun part h => ?_,
      List.forall_mem_cons.mpr ⟨hright, fun part h => ?_⟩⟩⟩
    · exact Nat.le_trans (left.inside_height part h) hleft
    · exact Nat.le_trans (right.inside_height part h) hright
  | method _ object _ args =>
    have hobject : object.height ≤ max object.height (heightAll args) + 1 := by omega
    have hargs : heightAll args ≤ max object.height (heightAll args) + 1 := by omega
    refine List.forall_mem_cons.mpr ⟨hobject, List.forall_mem_append.mpr ⟨fun part h => ?_,
      fun part h => ?_⟩⟩
    · exact Nat.le_trans (object.inside_height part h) hobject
    · exact Nat.le_trans (insideAll_height args part h) hargs

theorem insideAll_height (es : List Expr) : ∀ part ∈ insideAll es, part.height ≤ heightAll es := by
  cases es with
  | nil => exact List.forall_mem_nil _
  | cons e es =>
    have hfirst : e.height ≤ max e.height (heightAll es) := Nat.le_max_left ..
    refine List.forall_mem_cons.mpr ⟨hfirst, List.forall_mem_append.mpr ⟨fun part h => ?_,
      fun part h => ?_⟩⟩
    · exact Nat.le_trans (e.inside_height part h) hfirst
    · exact Nat.le_trans (insideAll_height es part h) (Nat.le_max_right ..)

end

namespace Parser

/-! ## Rules for values -/

namespace Yields

variable {α : Type} {P : α → Prop}

theorem nested {room : Nat} {p : (r : Nat) → r < room → Parser α}
    (h : ∀ r hr, Yields (p r hr) P) : Yields (nested room p) P := by
  cases room with
  | zero => exact report .tooDeep
  | succ r => exact h r (Nat.lt_succ_self r)

theorem separated {p : Parser α} (hp : Yields p P) :
    Yields (separated p) fun as => ∀ a ∈ as, P a := by
  intro s as u h
  fun_induction Parser.separated p s generalizing as u with
  | case1 | case3 | case5 => cases h
  | case2 s a t hs | case6 s a t hs =>
    obtain rfl := Option.some.inj (Prod.mk.inj h).1
    exact List.forall_mem_singleton.mpr (hp hs)
  | case4 s a t hs comma rest hrest hcomma hlength others u hmore ih =>
    obtain rfl := Option.some.inj (Prod.mk.inj h).1
    exact List.forall_mem_cons.mpr ⟨hp hs, ih hmore⟩

theorem listUpTo (closing : TokenKind) (what : Expectation) {p : Parser α} (hp : Yields p P) :
    Yields (listUpTo closing what p) fun as => ∀ a ∈ as, P a := by
  refine .next fun found => ?_
  cases found with
  | true => exact .pure (List.forall_mem_nil _)
  | false => exact .bind hp.separated fun _ h => .next fun _ => .pure h

theorem weaken {p : Parser α} {Q : α → Prop} (hp : Yields p P) (h : ∀ a, P a → Q a) :
    Yields p Q :=
  fun _ _ _ hs => h _ (hp hs)

end Yields

/-! ## Expressions -/

/-- One more link, and what it holds has one level less. -/
theorem link_height {r room left part whole : Nat} (hr : r < room)
    (hpart : part ≤ (r + 1) * (r + 1)) (hwhole : whole ≤ max left part + 1) :
    max (whole + r) (r * r + r) ≤ max (left + room) (room * room + room) := by
  have hsquare : (r + 1) * (r + 1) ≤ room * room := Nat.mul_le_mul hr hr
  have hless : r * r ≤ (r + 1) * (r + 1) := Nat.mul_le_mul (Nat.le_succ r) (Nat.le_succ r)
  omega

mutual

theorem expressionAbove_height (room min : Nat) :
    Yields (expressionAbove room min) fun e => e.height ≤ (room + 1) * (room + 1) := by
  rw [expressionAbove]
  refine .bind (unary_height room) fun left hleft => ?_
  refine (operators_height room min left).weaken fun e he => Nat.le_trans he ?_
  have hsquare : (room + 1) * (room + 1) = room * room + 2 * room + 1 := by
    rw [Nat.add_mul, Nat.mul_add]
    omega
  omega
termination_by 5 * room + 3
decreasing_by all_goals omega

theorem operators_height (room min : Nat) (left : Expr) :
    Yields (operators room min left) fun e =>
      e.height ≤ max (left.height + room) (room * room + room) := by
  rw [operators]
  refine .next fun t => ?_
  have hstay : Yields (pure left : Parser Expr) fun e =>
      e.height ≤ max (left.height + room) (room * room + room) := .pure (by omega)
  split
  · exact hstay
  · split
    · exact hstay
    · refine .nested fun r hr => .next fun _ => ?_
      refine .bind (expressionAbove_height r _) fun right hright => ?_
      refine (operators_height r min _).weaken fun e he => Nat.le_trans he ?_
      exact link_height hr hright (Nat.le_refl _)
termination_by 5 * room
decreasing_by all_goals omega

theorem unary_height (room : Nat) :
    Yields (unary room) fun e => e.height ≤ room * room + room + 1 := by
  rw [unary]
  refine .next fun t => ?_
  split
  · refine .nested fun r hr => .next fun _ => .bind (unary_height r) fun e he => .pure ?_
    have hsquare : r * r ≤ room * room := Nat.mul_le_mul (Nat.le_of_lt hr) (Nat.le_of_lt hr)
    rw [Expr.height]
    omega
  · refine .bind (primary_height room) fun e he => ?_
    refine (accesses_height room e).weaken fun e' he' => Nat.le_trans he' ?_
    omega
termination_by 5 * room + 2
decreasing_by all_goals omega

theorem accesses_height (room : Nat) (e : Expr) :
    Yields (accesses room e) fun e' =>
      e'.height ≤ max (e.height + room) (room * room + room) := by
  rw [accesses]
  refine .next fun t => ?_
  split
  · refine .nested fun r hr => .next fun _ => .next fun name => .next fun found => ?_
    cases found with
    | true =>
      refine .bind (arguments_height r _ _) fun args hargs => ?_
      refine (accesses_height r _).weaken fun e' he' => Nat.le_trans he' ?_
      exact link_height hr hargs (Nat.le_refl _)
    | false =>
      refine (accesses_height r _).weaken fun e' he' => Nat.le_trans he' ?_
      exact link_height hr (Nat.zero_le _) (Nat.succ_le_succ (Nat.le_max_left _ 0))
  · refine .nested fun r hr => .next fun _ => ?_
    refine .bind (expressionAbove_height r 0) fun i hi => .next fun _ => ?_
    refine (accesses_height r _).weaken fun e' he' => Nat.le_trans he' ?_
    exact link_height hr hi (Nat.le_refl _)
  · refine .nested fun r hr => ?_
    split
    · refine .next fun _ => .bind (arguments_height r _ _) fun args hargs => ?_
      refine (accesses_height r _).weaken fun e' he' => Nat.le_trans he' ?_
      exact link_height hr hargs (Nat.succ_le_succ (Nat.le_max_right ..))
    · exact .report _
  · exact .pure (by omega)
termination_by 5 * room
decreasing_by all_goals omega

theorem arguments_height (room : Nat) (closing : TokenKind) (what : Expectation) :
    Yields (listUpTo closing what (expressionAbove room 0)) fun args =>
      heightAll args ≤ (room + 1) * (room + 1) :=
  (Yields.listUpTo closing what (expressionAbove_height room 0)).weaken fun _ h =>
    heightAll_le.mpr h
termination_by 5 * room + 4
decreasing_by all_goals omega

theorem primary_height (room : Nat) :
    Yields (primary room) fun e => e.height ≤ room * room + 1 := by
  rw [primary]
  refine .next fun t => ?_
  split
  iterate 6 exact .next fun _ => .pure (Nat.le_add_left 1 _)
  · refine .nested fun r hr => .next fun _ => .bind (expressionAbove_height r 0) fun e he => ?_
    refine .next fun _ => .pure (Nat.le_succ_of_le (Nat.le_trans he ?_))
    exact Nat.mul_le_mul hr hr
  · refine .nested fun r hr => .next fun _ => .bind (arguments_height r _ _) fun items hitems => ?_
    exact .pure (Nat.succ_le_succ (Nat.le_trans hitems (Nat.mul_le_mul hr hr)))
  · exact .report _
termination_by 5 * room + 1
decreasing_by all_goals omega

end

/-! ## Statements -/

section

variable {Q : Expr → Prop}

theorem statementsUntil_exprs {closing : Option TokenKind} {p : Parser Stmt}
    (hp : Yields p fun s => ∀ e ∈ s.exprs, Q e) (s : State) :
    ∀ e ∈ stmtExprs (statementsUntil closing p s).1, Q e := by
  fun_induction statementsUntil closing p s with
  | case1 | case2 => exact List.forall_mem_nil _
  | case3 s _ _ stmt t hs _ _ ih => exact List.forall_mem_append.mpr ⟨hp hs, ih⟩
  | case4 _ _ _ _ _ _ ih => exact ih

theorem conditional_exprs {cond : Parser Expr} {body : Parser (List Stmt)} (hcond : Yields cond Q)
    (hbody : Yields body fun ss => ∀ e ∈ stmtExprs ss, Q e) :
    Yields (conditional cond body) fun s => ∀ e ∈ s.exprs, Q e := by
  have harm : Yields (arm cond body) fun a => Q a.2.1 ∧ ∀ e ∈ stmtExprs a.2.2.1, Q e :=
    .next fun _ => .bind hcond fun _ hc => .bind hbody fun _ hb => .next fun _ => .pure ⟨hc, hb⟩
  intro s stmt u h
  fun_induction conditional cond body s generalizing stmt u with
  | case1 | case3 | case5 | case6 => cases h
  | case2 _ _ _ _ _ hs =>
    obtain rfl := Option.some.inj (Prod.mk.inj h).1
    obtain ⟨hc, hb⟩ := harm hs
    exact List.forall_mem_cons.mpr ⟨hc, List.forall_mem_append.mpr ⟨hb, List.forall_mem_nil _⟩⟩
  | case4 _ _ _ _ _ hs _ _ other _ hother ih =>
    obtain rfl := Option.some.inj (Prod.mk.inj h).1
    obtain ⟨hc, hb⟩ := harm hs
    exact List.forall_mem_cons.mpr ⟨hc, List.forall_mem_append.mpr ⟨hb, ih hother⟩⟩
  | case7 _ _ _ _ _ hs _ _ _ hother =>
    obtain rfl := Option.some.inj (Prod.mk.inj h).1
    obtain ⟨hc, hb⟩ := harm hs
    exact List.forall_mem_cons.mpr ⟨hc, List.forall_mem_append.mpr ⟨hb, hbody hother⟩⟩

/-- What holds of every expression that is read holds of those in a statement. -/
theorem statement_exprs_of_block {room : Nat} (hexpr : Yields (expression room) Q)
    (hblock : Yields (block room) fun ss => ∀ e ∈ stmtExprs ss, Q e) :
    Yields (statement room) fun s => ∀ e ∈ s.exprs, Q e := by
  have hevaluate : ∀ what line, Yields (do
      let e ← expression room
      expect .semicolon what
      return Stmt.evaluate line e) fun s => ∀ e ∈ s.exprs, Q e := fun what line =>
    .bind hexpr fun _ he => .next fun _ => .pure (List.forall_mem_singleton.mpr he)
  rw [statement]
  refine .next fun t => ?_
  cases t.kind with
  | letWord =>
    exact .next fun _ => .next fun _ => .next fun _ => .bind hexpr fun _ he => .next fun _ =>
      .pure (List.forall_mem_singleton.mpr he)
  | ifWord => exact conditional_exprs hexpr hblock
  | whileWord =>
    exact .next fun _ => .bind hexpr fun _ he => .bind hblock fun _ hbody =>
      .pure (List.forall_mem_cons.mpr ⟨he, hbody⟩)
  | forWord =>
    exact .next fun _ => .next fun _ => .next fun _ => .bind hexpr fun _ he =>
      .bind hblock fun _ hbody => .pure (List.forall_mem_cons.mpr ⟨he, hbody⟩)
  | checkpointWord => exact .next fun _ => .next fun _ => .bind hblock fun _ hbody => .pure hbody
  | leftBrace => exact .bind hblock fun _ hbody => .pure hbody
  | ident =>
    refine .next fun _ => ?_
    split
    · exact .next fun _ => .next fun _ => .bind hexpr fun _ he => .next fun _ =>
        .pure (List.forall_mem_singleton.mpr he)
    · exact hevaluate _ _
  | _ => exact hevaluate _ _

theorem block_exprs {room : Nat} (hexpr : ∀ r ≤ room, Yields (expression r) Q) :
    Yields (block room) fun ss => ∀ e ∈ stmtExprs ss, Q e := by
  induction room with
  | zero =>
    rw [block]
    exact .next fun _ => .report _
  | succ room ih =>
    have hinner : ∀ r ≤ room, Yields (expression r) Q := fun r hr =>
      hexpr r (Nat.le_succ_of_le hr)
    rw [block]
    refine .next fun _ => ?_
    refine .bind (P := fun ss => ∀ e ∈ stmtExprs ss, Q e) ?_ fun _ h => .next fun _ => .pure h
    intro s ss t h
    obtain rfl := Option.some.inj (Prod.mk.inj h).1
    exact statementsUntil_exprs
      (statement_exprs_of_block (hinner room (Nat.le_refl _)) (ih hinner)) s

end

theorem expression_height {room r : Nat} (hr : r ≤ room) :
    Yields (expression r) fun e => e.height ≤ (room + 1) * (room + 1) :=
  (expressionAbove_height r 0).weaken fun _ he =>
    Nat.le_trans he (Nat.mul_le_mul (Nat.succ_le_succ hr) (Nat.succ_le_succ hr))

end Parser

/-- Also where there are problems. -/
theorem exprs_bounded (tokens : List Token) :
    ∀ e ∈ (parse tokens).1.exprs, e.height ≤ (maxNesting + 1) * (maxNesting + 1) := by
  have hexpr := fun r => @Parser.expression_height maxNesting r
  have hstmts : ∀ e ∈ stmtExprs (parse tokens).1.stmts,
      e.height ≤ (maxNesting + 1) * (maxNesting + 1) :=
    Parser.statementsUntil_exprs
      (Parser.statement_exprs_of_block (hexpr maxNesting (Nat.le_refl _))
        (Parser.block_exprs hexpr)) _
  exact fun e he => Nat.le_trans (insideAll_height _ e he) (heightAll_le.mpr hstmts)

end Script
end CheckScript
