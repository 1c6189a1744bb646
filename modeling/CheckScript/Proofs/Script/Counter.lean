/-
The nesting limit as one counter.

The parser is told how many levels are left.  Here the grammar of expressions counts the levels
that are used instead, in one counter that is handed on from each part to the next: it is raised
for every prefix operator, pair of brackets and link of a chain, set back at the end of a chain,
and comes back with the value.  Both read the same, and the counter comes back as it was
(`binary_eq`), so that what one part of a list has used is there again for the next.
-/
import CheckScript.Proofs.Script.ExprHeight

namespace CheckScript
namespace Script
namespace Counter

open CheckScript.Script.Parser

variable {α β : Type}

def enter (depth : Nat) (p : (d : Nat) → d = depth + 1 → depth < maxNesting → Parser α) :
    Parser α :=
  if h : depth < maxNesting then p (depth + 1) rfl h else report .tooDeep

def leave (depth : Nat) : Nat := depth - 1

/-- Go on with the counter that has come back.  The test that it is not lower than before always
holds for the parts of the grammar. -/
def andThen (depth : Nat) (p : Parser (α × Nat))
    (f : α → (d : Nat) → depth ≤ d → Parser β) : Parser β := do
  let r ← p
  if h : depth ≤ r.2 then f r.1 r.2 h else fun s => (none, s)

/-- One item or more, each with the counter that comes back from the one before it. -/
def separated (depth : Nat) (item : (d : Nat) → depth ≤ d → Parser (α × Nat)) (d : Nat)
    (hd : depth ≤ d) (s : State) : Option (List α × Nat) × State :=
  match item d hd s with
  | (none, t) => (none, t)
  | (some (a, d'), t) =>
    match t.rest with
    | [] => (some ([a], d'), t)
    | comma :: rest =>
      if comma.kind = .comma then
        if rest.length < s.rest.length then
          if h : depth ≤ d' then
            match separated depth item d' h { t with rest := rest } with
            | (none, u) => (none, u)
            | (some (as, d''), u) => (some (a :: as, d''), u)
          else (none, t)
        else (none, t)
      else (some ([a], d'), t)
termination_by s.rest.length

def listUpTo (closing : TokenKind) (what : Expectation) (depth : Nat)
    (item : (d : Nat) → depth ≤ d → Parser (α × Nat)) : Parser (List α × Nat) := do
  if ← accept closing then return ([], depth)
  else
    let items ← separated depth item depth (Nat.le_refl depth)
    expect closing what
    return items

mutual

def binary (depth min : Nat) : Parser (Expr × Nat) :=
  andThen depth (unary depth) fun left base _ => operators base base min left
termination_by 5 * (maxNesting - depth) + 3
decreasing_by all_goals omega

/-- The links of a chain of operators that began at `base`. -/
def operators (base depth min : Nat) (left : Expr) : Parser (Expr × Nat) := do
  let t ← peek
  match BinaryOp.ofToken t.kind with
  | none => return (left, base)
  | some op =>
    if op.level ≤ min then return (left, base)
    else enter depth fun d _ _ => do
      let _ ← advance
      andThen d (binary d op.level) fun right d' _ =>
        operators base d' min (.binary t.place op left right)
termination_by 5 * (maxNesting - depth)
decreasing_by all_goals omega

def unary (depth : Nat) : Parser (Expr × Nat) := do
  let t ← peek
  match UnaryOp.ofToken t.kind with
  | some op => enter depth fun d _ _ => do
    let _ ← advance
    let operand ← unary d
    return (.unary t.place op operand.1, leave operand.2)
  | none => andThen depth (primary depth) fun e base _ => accesses base base e
termination_by 5 * (maxNesting - depth) + 2
decreasing_by all_goals omega

/-- The links of a chain of accesses that began at `base`. -/
def accesses (base depth : Nat) (e : Expr) : Parser (Expr × Nat) := do
  let t ← peek
  match t.kind with
  | .dot => enter depth fun d _ _ => do
    let _ ← advance
    let name ← identifier .memberName
    if ← accept .leftParen then
      andThen d (listUpTo .rightParen .argumentsEnd d fun d' _ => binary d' 0)
        fun args d' _ => accesses base d' (.method t.place e name args)
    else accesses base d (.field t.place e name)
  | .leftBracket => enter depth fun d _ _ => do
    let _ ← advance
    andThen d (binary d 0) fun index d' _ => do
      expect .rightBracket .indexEnd
      accesses base d' (.index t.place e index)
  | .leftParen => enter depth fun d _ _ =>
    match e with
    | .ident p name => do
      let _ ← advance
      andThen d (listUpTo .rightParen .argumentsEnd d fun d' _ => binary d' 0)
        fun args d' _ => accesses base d' (.call p name args)
    | _ => report .notCallable
  | _ => return (e, base)
termination_by 5 * (maxNesting - depth)
decreasing_by all_goals omega

def primary (depth : Nat) : Parser (Expr × Nat) := do
  let t ← peek
  match t.kind with
  | .int n =>
    let _ ← advance
    return (.int t.place n, depth)
  | .str s =>
    let _ ← advance
    return (.str t.place s, depth)
  | .trueWord =>
    let _ ← advance
    return (.bool t.place true, depth)
  | .falseWord =>
    let _ ← advance
    return (.bool t.place false, depth)
  | .nullWord =>
    let _ ← advance
    return (.null t.place, depth)
  | .ident name =>
    let _ ← advance
    return (.ident t.place name, depth)
  | .leftParen => enter depth fun d _ _ => do
    let _ ← advance
    let e ← binary d 0
    expect .rightParen .groupEnd
    return (e.1, leave e.2)
  | .leftBracket => enter depth fun d _ _ => do
    let _ ← advance
    let items ← listUpTo .rightBracket .listEnd d fun d' _ => binary d' 0
    return (.list t.place items.1, leave items.2)
  | _ => missing .expression
termination_by 5 * (maxNesting - depth) + 1
decreasing_by all_goals omega

end

/-- With the counter as it was. -/
def counted (depth : Nat) (p : Parser α) : Parser (α × Nat) := do
  let a ← p
  return (a, depth)

/-! ## Parsers one after the other -/

theorem bind_assoc {γ : Type} (p : Parser α) (f : α → Parser β) (g : β → Parser γ) :
    (p >>= f) >>= g = p >>= fun a => f a >>= g := by
  funext s
  rw [bind_apply, bind_apply, bind_apply]
  cases p s with | mk found t => ?_
  cases found <;> rfl

theorem bind_congr {p : Parser α} {f g : α → Parser β} (h : ∀ a, f a = g a) :
    p >>= f = p >>= g := by
  rw [funext h]

theorem counted_apply (depth : Nat) (p : Parser α) (s : State) :
    counted depth p s = match p s with
      | (some a, t) => (some (a, depth), t)
      | (none, t) => (none, t) := rfl

theorem counted_pure (depth : Nat) (a : α) : counted depth (pure a) = pure (a, depth) := rfl

theorem counted_bind (depth : Nat) (p : Parser α) (f : α → Parser β) :
    counted depth (p >>= f) = p >>= fun a => counted depth (f a) :=
  bind_assoc ..

theorem counted_nested (depth room : Nat) (p : (r : Nat) → r < room → Parser α) :
    counted depth (nested room p) = nested room fun r hr => counted depth (p r hr) := by
  cases room <;> rfl

theorem andThen_counted {depth d : Nat} (h : depth ≤ d) (p : Parser α)
    (f : α → (d : Nat) → depth ≤ d → Parser β) :
    andThen depth (counted d p) f = p >>= fun a => f a d h := by
  rw [andThen, counted, bind_assoc]
  exact bind_congr fun a => dif_pos h

theorem counted_then (depth : Nat) (p : Parser α) (f : α × Nat → Parser β) :
    counted depth p >>= f = p >>= fun a => f (a, depth) :=
  bind_assoc ..

theorem leave_eq {depth d : Nat} (hd : d = depth + 1) : leave d = depth := by
  rw [hd]
  rfl

theorem nested_of_succ {room r : Nat} (hroom : room = r + 1) (hr : r < room)
    (p : (r : Nat) → r < room → Parser α) : nested room p = p r hr := by
  subst hroom
  rfl

theorem nested_of_zero {room : Nat} (hroom : room = 0) (p : (r : Nat) → r < room → Parser α) :
    nested room p = report .tooDeep := by
  subst hroom
  rfl

/-- The counter can be raised where a level is left. -/
theorem enter_eq {depth : Nat} {p : (d : Nat) → d = depth + 1 → depth < maxNesting → Parser α}
    {q : (r : Nat) → r < maxNesting - depth → Parser α}
    (h : ∀ d hd hlt hr, p d hd hlt = q (maxNesting - d) hr) :
    enter depth p = nested (maxNesting - depth) q := by
  unfold enter
  by_cases hlt : depth < maxNesting
  · have hr : maxNesting - (depth + 1) < maxNesting - depth := by omega
    rw [dif_pos hlt, h _ _ _ hr]
    exact (nested_of_succ (by omega) hr q).symm
  · rw [dif_neg hlt]
    exact (nested_of_zero (by omega) q).symm

/-! ## Lists -/

section

variable {depth : Nat} {p : Parser α}

theorem separated_eq {item : (d : Nat) → depth ≤ d → Parser (α × Nat)} {d : Nat} {hd : depth ≤ d}
    (hitem : item d hd = counted d p) (s : State) :
    separated depth item d hd s = counted d (Parser.separated p) s := by
  refine Eq.trans ?_ (counted_apply d (Parser.separated p) s).symm
  have hfirst : ∀ s, item d hd s = match p s with
      | (some a, t) => (some (a, d), t)
      | (none, t) => (none, t) := fun s => by rw [hitem, counted_apply]
  fun_induction Parser.separated p s with
  | case1 s t hs => rw [separated, hfirst, hs]
  | case2 s a t hs hrest =>
    rw [separated, hfirst, hs]
    simp only [hrest]
  | case3 s a t hs comma rest hrest hcomma hlength u hmore ih
  | case4 s a t hs comma rest hrest hcomma hlength as u hmore ih =>
    rw [hmore] at ih
    rw [separated, hfirst, hs]
    simp only [hrest]
    rw [if_pos hcomma, if_pos hlength, dif_pos hd, ih]
  | case5 s a t hs comma rest hrest hcomma hlength =>
    rw [separated, hfirst, hs]
    simp only [hrest]
    rw [if_pos hcomma, if_neg hlength]
  | case6 s a t hs comma rest hrest hcomma =>
    rw [separated, hfirst, hs]
    simp only [hrest]
    rw [if_neg hcomma]

theorem listUpTo_eq (closing : TokenKind) (what : Expectation)
    {item : (d : Nat) → depth ≤ d → Parser (α × Nat)}
    (hitem : item depth (Nat.le_refl depth) = counted depth p) :
    listUpTo closing what depth item = counted depth (Parser.listUpTo closing what p) := by
  rw [listUpTo, Parser.listUpTo, counted_bind]
  refine bind_congr fun found => ?_
  cases found with
  | true => rfl
  | false =>
    have hseparated : (separated depth item depth (Nat.le_refl depth) : Parser (List α × Nat)) =
        counted depth (Parser.separated p) := funext (separated_eq hitem)
    calc (separated depth item depth (Nat.le_refl depth) : Parser (List α × Nat)) >>=
          fun items => expect closing what >>= fun _ => pure items
      _ = counted depth (Parser.separated p) >>=
          fun items => expect closing what >>= fun _ => pure items := by rw [hseparated]
      _ = Parser.separated p >>= fun items =>
          expect closing what >>= fun _ => pure (items, depth) := counted_then ..
      _ = counted depth (Parser.separated p >>= fun items =>
          expect closing what >>= fun _ => pure items) :=
        ((counted_bind ..).trans (bind_congr fun items =>
          counted_bind depth (expect closing what) fun _ => pure items)).symm

end

/-! ## The grammar -/

mutual

theorem binary_eq (depth min : Nat) :
    binary depth min = counted depth (expressionAbove (maxNesting - depth) min) := by
  rw [binary, expressionAbove, unary_eq, andThen_counted (Nat.le_refl _), counted_bind]
  exact bind_congr fun left => operators_eq depth depth min left
termination_by 5 * (maxNesting - depth) + 3
decreasing_by all_goals omega

theorem operators_eq (base depth min : Nat) (left : Expr) :
    operators base depth min left =
      counted base (Parser.operators (maxNesting - depth) min left) := by
  rw [operators, Parser.operators, counted_bind]
  refine bind_congr fun t => ?_
  cases BinaryOp.ofToken t.kind with
  | none => rfl
  | some op =>
    by_cases hlevel : op.level ≤ min
    · simp only [if_pos hlevel]
      rfl
    · simp only [if_neg hlevel, counted_nested]
      refine enter_eq fun d hd hlt hr => ?_
      rw [counted_bind, binary_eq, andThen_counted (Nat.le_refl _)]
      refine bind_congr fun _ => ?_
      rw [counted_bind]
      exact bind_congr fun right => operators_eq base d min _
termination_by 5 * (maxNesting - depth)
decreasing_by all_goals omega

theorem unary_eq (depth : Nat) :
    unary depth = counted depth (Parser.unary (maxNesting - depth)) := by
  rw [unary, Parser.unary, counted_bind]
  refine bind_congr fun t => ?_
  cases UnaryOp.ofToken t.kind with
  | some op =>
    simp only [counted_nested]
    refine enter_eq fun d hd hlt hr => ?_
    rw [counted_bind, unary_eq]
    refine bind_congr fun _ => ?_
    rw [counted_then, counted_bind]
    exact bind_congr fun _ => congrArg (fun n => pure (_, n)) (leave_eq hd)
  | none =>
    simp only
    rw [primary_eq, andThen_counted (Nat.le_refl _), counted_bind]
    exact bind_congr fun e => accesses_eq depth depth e
termination_by 5 * (maxNesting - depth) + 2
decreasing_by all_goals omega

theorem accesses_eq (base depth : Nat) (e : Expr) :
    accesses base depth e = counted base (Parser.accesses (maxNesting - depth) e) := by
  rw [accesses, Parser.accesses, counted_bind]
  refine bind_congr fun t => ?_
  cases t.kind with
  | dot =>
    simp only [counted_nested]
    refine enter_eq fun d hd hlt hr => ?_
    rw [counted_bind]
    refine bind_congr fun _ => ?_
    rw [counted_bind]
    refine bind_congr fun name => ?_
    rw [counted_bind]
    refine bind_congr fun found => ?_
    cases found with
    | true =>
      simp only [if_true]
      rw [arguments_eq, andThen_counted (Nat.le_refl _), counted_bind]
      exact bind_congr fun args => accesses_eq base d _
    | false => exact accesses_eq base d _
  | leftBracket =>
    simp only [counted_nested]
    refine enter_eq fun d hd hlt hr => ?_
    rw [counted_bind, binary_eq, andThen_counted (Nat.le_refl _)]
    refine bind_congr fun _ => ?_
    rw [counted_bind]
    refine bind_congr fun index => ?_
    rw [counted_bind]
    exact bind_congr fun _ => accesses_eq base d _
  | leftParen =>
    simp only [counted_nested]
    refine enter_eq fun d hd hlt hr => ?_
    cases e with
    | ident p name =>
      simp only
      rw [counted_bind, arguments_eq, andThen_counted (Nat.le_refl _)]
      refine bind_congr fun _ => ?_
      rw [counted_bind]
      exact bind_congr fun args => accesses_eq base d _
    | _ => rfl
  | _ => rfl
termination_by 5 * (maxNesting - depth)
decreasing_by all_goals omega

theorem arguments_eq (depth : Nat) (closing : TokenKind) (what : Expectation) :
    (listUpTo closing what depth fun d _ => binary d 0) =
      counted depth (Parser.listUpTo closing what (expressionAbove (maxNesting - depth) 0)) :=
  listUpTo_eq closing what (binary_eq depth 0)
termination_by 5 * (maxNesting - depth) + 4
decreasing_by all_goals omega

theorem primary_eq (depth : Nat) :
    primary depth = counted depth (Parser.primary (maxNesting - depth)) := by
  rw [primary, Parser.primary, counted_bind]
  refine bind_congr fun t => ?_
  cases t.kind with
  | leftParen =>
    simp only [counted_nested]
    refine enter_eq fun d hd hlt hr => ?_
    rw [counted_bind, binary_eq]
    refine bind_congr fun _ => ?_
    rw [counted_then, counted_bind]
    refine bind_congr fun e => ?_
    rw [counted_bind, leave_eq hd]
    rfl
  | leftBracket =>
    simp only [counted_nested]
    refine enter_eq fun d hd hlt hr => ?_
    rw [counted_bind, arguments_eq]
    refine bind_congr fun _ => ?_
    rw [counted_then, counted_bind]
    exact bind_congr fun _ => congrArg (fun n => pure (_, n)) (leave_eq hd)
  | int | str | trueWord | falseWord | nullWord | ident =>
    simp only [counted_bind, counted_pure]
  | _ => rfl
termination_by 5 * (maxNesting - depth) + 1
decreasing_by all_goals omega

end

end Counter

open CheckScript.Script.Parser

/-- No expression of a script is higher than the square of the number of levels and one, whatever
it consists of and whether or not there are problems.  The counter of the levels comes back from
every expression as it was, so that the levels of one expression of a list are there again for
the next. -/
theorem expressions_bounded (tokens : List Token) :
    (∀ e ∈ (parse tokens).1.exprs, e.height ≤ (maxNesting + 1) * (maxNesting + 1)) ∧
    (∀ depth min, Counter.binary depth min = do
      let e ← expressionAbove (maxNesting - depth) min
      return (e, depth)) ∧
    ∀ depth closing what,
      (Counter.listUpTo closing what depth fun d _ => Counter.binary d 0) = do
        let es ← listUpTo closing what (expression (maxNesting - depth))
        return (es, depth) :=
  ⟨exprs_bounded tokens, Counter.binary_eq, Counter.arguments_eq⟩

end Script
end CheckScript
