/-
Semicolons end statements, and nothing else.

Where no block begins, a parser passes a semicolon only as the last word of a statement, and it
reports nothing before it gives up, with one problem (`Careful`).  So a statement that cannot be
read is given up in front of its semicolon.
-/
import CheckScript.Proofs.Script.Locality

namespace CheckScript
namespace Script
namespace Parser

def semicolons (ts : List Token) : Nat := ts.countP fun t => t.kind == .semicolon

theorem semicolons_cons {t : Token} {kind : TokenKind} (ts : List Token) (ht : t.kind = kind)
    (hkind : kind ≠ .semicolon) : semicolons (t :: ts) = semicolons ts :=
  List.countP_cons_of_neg (by rw [ht]; exact mt beq_iff_eq.mp hkind)

theorem semicolons_semicolon {t : Token} (ts : List Token) (ht : t.kind = .semicolon) :
    semicolons (t :: ts) = semicolons ts + 1 :=
  List.countP_cons_of_pos (beq_iff_eq.mpr ht)

/-- No block begins in the words that are left. -/
structure Unbraced (s : State) : Prop where
  finish : s.finish.kind = .finish
  rest : ∀ t ∈ s.rest, t.kind ≠ .leftBrace

namespace Unbraced

variable {s t : State}

theorem behind (hs : Unbraced s) (h : t.rest <:+ s.rest ∧ t.finish = s.finish) : Unbraced t where
  finish := h.2 ▸ hs.finish
  rest u hu := hs.rest u (h.1.subset hu)

theorem head (hs : Unbraced s) : s.head.kind ≠ .leftBrace := by
  rw [State.head]
  split
  · rw [hs.finish]
    decide
  · rename_i u rest hrest
    exact hs.rest u (hrest ▸ List.mem_cons_self)

end Unbraced

/-- What reading at `s` comes to.  With a value `n` semicolons have been passed and nothing is
reported.  Without one no semicolon has been passed, and a problem with the next word is
reported. -/
inductive Passes {α : Type} (n : Nat) (s : State) : Option α × State → Prop where
  | value {a : α} {t : State} (hbehind : t.rest <:+ s.rest ∧ t.finish = s.finish)
      (hsemicolons : semicolons s.rest = semicolons t.rest + n)
      (hreports : t.diagnostics = s.diagnostics) : Passes n s (some a, t)
  | problem {t : State} (problem : Problem) (hbehind : t.rest <:+ s.rest ∧ t.finish = s.finish)
      (hsemicolons : semicolons s.rest = semicolons t.rest)
      (hreports : t.diagnostics = s.diagnostics ++ [⟨t.head.place, problem⟩]) :
      Passes n s (none, t)

/-- Reading at states whose next word is `t`. -/
def CarefulAt {α : Type} (t : Token) (n : Nat) (p : Parser α) : Prop :=
  ∀ s : State, Unbraced s → s.head = t → Passes n s (p s)

def Careful {α : Type} (n : Nat) (p : Parser α) : Prop := ∀ t, CarefulAt t n p

section

variable {α β : Type} {n : Nat}

namespace Passes

variable {s t : State}

theorem stay (a : α) : Passes 0 s (some a, s) := .value ⟨List.suffix_refl _, rfl⟩ rfl rfl

theorem of_none {m : Nat} (h : Passes (α := α) n s (none, t)) : Passes (α := β) m s (none, t) := by
  cases h with
  | problem problem hbehind hsemicolons hreports =>
    exact .problem problem hbehind hsemicolons hreports

theorem map {a : α} {b : β} (h : Passes n s (some a, t)) : Passes n s (some b, t) := by
  cases h with
  | value hbehind hsemicolons hreports => exact .value hbehind hsemicolons hreports

theorem behind {r : Option α × State} (h : Passes n s r) :
    r.2.rest <:+ s.rest ∧ r.2.finish = s.finish := by
  cases h with
  | value hbehind => exact hbehind
  | problem _ hbehind => exact hbehind

theorem andThen {a : α} {r : Option β × State} (h : Passes 0 s (some a, t)) (hr : Passes n t r) :
    Passes n s r := by
  cases h with
  | value hbehind hsemicolons hreports =>
    rw [Nat.add_zero] at hsemicolons
    cases hr with
    | value hbehind' hsemicolons' hreports' =>
      exact .value ⟨hbehind'.1.trans hbehind.1, hbehind'.2.trans hbehind.2⟩
        (hsemicolons.trans hsemicolons') (hreports'.trans hreports)
    | problem problem hbehind' hsemicolons' hreports' =>
      exact .problem problem ⟨hbehind'.1.trans hbehind.1, hbehind'.2.trans hbehind.2⟩
        (hsemicolons.trans hsemicolons') (hreports ▸ hreports')

/-- One word is passed. -/
theorem word {u : Token} {rest : List Token} {kind : TokenKind} (a : α) (hrest : s.rest = u :: rest)
    (hu : u.kind = kind) (hkind : kind ≠ .semicolon) :
    Passes 0 s (some a, { s with rest := rest }) :=
  .value ⟨hrest ▸ List.suffix_cons .., rfl⟩ (by rw [hrest, semicolons_cons rest hu hkind]; rfl) rfl

end Passes

namespace CarefulAt

variable {t : Token}

theorem report (problem : TokenKind → Problem) : CarefulAt t n (report problem : Parser α) :=
  fun _ _ _ => .problem _ ⟨List.suffix_refl _, rfl⟩ rfl rfl

theorem pure (a : α) : CarefulAt t 0 (pure a : Parser α) := fun _ _ _ => .stay a

theorem bind {p : Parser α} {f : α → Parser β} (hp : CarefulAt t 0 p)
    (hf : ∀ a, Careful n (f a)) : CarefulAt t n (p >>= f) := by
  intro s hs hhead
  have h := hp s hs hhead
  rw [bind_apply]
  split
  · rename_i a u hread
    rw [hread] at h
    exact h.andThen (hf a u.head u (hs.behind h.behind) rfl)
  · rename_i u hread
    rw [hread] at h
    exact h.of_none

theorem map {p : Parser α} (hp : CarefulAt t n p) (f : α → β) :
    CarefulAt t n (p >>= fun a => Pure.pure (f a)) := by
  intro s hs hhead
  have h := hp s hs hhead
  rw [bind_apply]
  split
  · rename_i a u hread
    rw [hread] at h
    exact h.map
  · rename_i u hread
    rw [hread] at h
    exact h.of_none

theorem advance {f : Token → Parser β} {kind : TokenKind} (ht : t.kind = kind)
    (hkind : kind ≠ .semicolon) (h : Careful n (f t)) : CarefulAt t n (advance >>= f) := by
  intro s hs hhead
  cases hrest : s.rest with
  | nil =>
    have hend : Parser.advance s = (some t, s) := by
      rw [← hhead, State.head, hrest, Parser.advance, hrest]
    rw [bind_some hend]
    exact h t s hs hhead
  | cons u rest =>
    obtain rfl : u = t := by rw [← hhead, State.head, hrest]
    rw [bind_some (advance_cons hrest)]
    have hword : Passes 0 s (some u, { s with rest := rest }) := .word u hrest ht hkind
    exact hword.andThen (h _ _ (hs.behind hword.behind) rfl)

theorem nested {room : Nat} {p : (r : Nat) → r < room → Parser α}
    (h : ∀ r hr, CarefulAt t n (p r hr)) : CarefulAt t n (nested room p) := by
  cases room with
  | zero => exact report .tooDeep
  | succ r => exact h r (Nat.lt_succ_self r)

/-- Two words are passed where the second one is of the kind that was looked for. -/
theorem second {f g : Parser α} {kind next : TokenKind} (ht : t.kind = kind)
    (hkind : kind ≠ .semicolon) (hnext : next ≠ .semicolon) (hf : Careful n f)
    (hg : CarefulAt t n g) : CarefulAt t n (do
      if (← second) = some next then
        let _ ← Parser.advance
        let _ ← Parser.advance
        f
      else g) := by
  intro s hs hhead
  rw [second_bind]
  by_cases hsecond : s.second? = some next
  · obtain ⟨u, rest, hrest, hu⟩ := rest_of_second hsecond
    rw [hhead] at hrest
    have hword : Passes 0 s (some t, { s with rest := u :: rest }) := .word t hrest ht hkind
    rw [if_pos hsecond, bind_some (advance_cons hrest)]
    exact hword.andThen (advance hu hnext hf _ (hs.behind hword.behind) rfl)
  · rw [if_neg hsecond]
    exact hg s hs hhead

end CarefulAt

namespace Careful

variable {s : State} {t : Token}

theorem peek {f : Token → Parser β} (h : ∀ t, CarefulAt t n (f t)) : Careful n (peek >>= f) :=
  fun _ s hs _ => h s.head s hs rfl

theorem pure (a : α) : Careful 0 (pure a : Parser α) := fun _ => .pure a

theorem bind {p : Parser α} {f : α → Parser β} (hp : Careful 0 p) (hf : ∀ a, Careful n (f a)) :
    Careful n (p >>= f) := fun t => (hp t).bind hf

theorem map {p : Parser α} (hp : Careful n p) (f : α → β) :
    Careful n (p >>= fun a => Pure.pure (f a)) := fun t => (hp t).map f

theorem expect {kind : TokenKind} (hkind : kind ≠ .semicolon) (what : Expectation) :
    Careful 0 (expect kind what) := by
  refine .peek fun t => ?_
  split
  · rename_i ht
    exact .advance ht hkind (.pure _)
  · exact .report _

theorem accept {kind : TokenKind} (hkind : kind ≠ .semicolon) : Careful 0 (accept kind) := by
  refine .peek fun t => ?_
  split
  · rename_i ht
    exact .advance ht hkind (.pure _)
  · exact .pure _

theorem identifier (what : Expectation) : Careful 0 (identifier what) := by
  refine .peek fun t => ?_
  split
  · rename_i name ht
    exact .advance ht nofun (.pure _)
  · exact .report _

theorem checkpointName : Careful 0 checkpointName := by
  refine .peek fun t => ?_
  split
  · rename_i name ht
    exact .advance ht nofun (.pure _)
  · exact .report _

theorem semicolon (what : Expectation) : Careful 1 (Parser.expect .semicolon what) := by
  intro t s hs _
  by_cases hhead : s.head.kind = .semicolon
  · obtain ⟨rest, hrest⟩ := rest_of_head hs.finish (by rw [hhead]; decide)
    rw [expect_cons what hrest hhead]
    refine .value ⟨hrest ▸ List.suffix_cons .., rfl⟩ ?_ rfl
    rw [hrest, semicolons_semicolon rest hhead]
  · rw [Parser.expect, peek_bind, if_neg hhead]
    exact CarefulAt.report _ s hs rfl

theorem separated {item : Parser α} (hitem : Careful 0 item) : Careful 0 (separated item) := by
  intro t s hs hhead
  clear hhead
  have hfirst : ∀ s, Unbraced s → Passes 0 s (item s) := fun s hs => hitem s.head s hs rfl
  fun_induction Parser.separated item s with
  | case1 s t hread =>
    have h := hfirst s hs
    rw [hread] at h
    exact h.of_none
  | case2 s a t hread _ | case6 s a t hread _ _ _ _ =>
    have h := hfirst s hs
    rw [hread] at h
    exact h.map
  | case3 s a t hread comma rest hrest hcomma hlength u hmore ih =>
    have h := hfirst s hs
    rw [hread] at h
    have hword := h.andThen (.word comma hrest hcomma (by decide))
    have hothers := ih (hs.behind hword.behind)
    rw [hmore] at hothers
    exact hword.andThen hothers.of_none
  | case4 s a t hread comma rest hrest hcomma hlength as u hmore ih =>
    have h := hfirst s hs
    rw [hread] at h
    have hword := h.andThen (.word comma hrest hcomma (by decide))
    have hothers := ih (hs.behind hword.behind)
    rw [hmore] at hothers
    exact hword.andThen hothers.map
  | case5 s a t hread comma rest hrest hcomma hlength =>
    have h := hfirst s hs
    rw [hread] at h
    have hlong := h.behind.1.length_le
    rw [hrest, List.length_cons] at hlong
    exact absurd hlong hlength

theorem listUpTo {closing : TokenKind} (hclosing : closing ≠ .semicolon) (what : Expectation)
    {item : Parser α} (hitem : Careful 0 item) : Careful 0 (listUpTo closing what item) := by
  refine .bind (.accept hclosing) fun found => ?_
  cases found with
  | true => exact .pure _
  | false => exact .bind hitem.separated fun _ => (Careful.expect hclosing what).map _

/-- What is never read gives no value. -/
theorem eq_none {p : Parser α} (hp : ∀ n, CarefulAt t n p) (hs : Unbraced s) (hhead : s.head = t) :
    (p s).1 = none := by
  have hzero := hp 0 s hs hhead
  have hone := hp 1 s hs hhead
  generalize p s = r at hzero hone
  cases hzero with
  | value _ hsemicolons _ =>
    cases hone with
    | value _ hsemicolons' _ => omega
  | problem => rfl

theorem never {p : Parser α} (hp : ∀ n, Careful n p) (f : α → Parser β) : Careful n (p >>= f) := by
  intro t s hs hhead
  have h := hp n t s hs hhead
  have hnone := eq_none (fun n => hp n t) hs hhead
  rw [bind_apply]
  split
  · rename_i a u hread
    rw [hread] at hnone
    cases hnone
  · rename_i u hread
    rw [hread] at h
    exact h.of_none

end Careful

end

/-! ## Expressions -/

mutual

theorem expressionAbove_careful (room min : Nat) : Careful 0 (expressionAbove room min) := by
  rw [expressionAbove]
  exact .bind (unary_careful room) fun left => operators_careful room min left
termination_by 4 * room + 3
decreasing_by all_goals omega

theorem operators_careful (room min : Nat) (left : Expr) :
    Careful 0 (operators room min left) := by
  rw [operators]
  refine .peek fun t => ?_
  split
  · exact .pure _
  · rename_i op hop
    have ht := BinaryOp.ofToken_eq_some.mp hop
    split
    · exact .pure _
    · exact .nested fun r hr => .advance ht (by cases op <;> exact nofun) <|
        .bind (expressionAbove_careful r _) fun right => operators_careful r min _
termination_by 4 * room
decreasing_by all_goals omega

theorem unary_careful (room : Nat) : Careful 0 (unary room) := by
  rw [unary]
  refine .peek fun t => ?_
  split
  · rename_i op hop
    have ht := UnaryOp.ofToken_eq_some.mp hop
    exact .nested fun r hr => .advance ht (by cases op <;> exact nofun) ((unary_careful r).map _)
  · exact Careful.bind (primary_careful room) (fun e => accesses_careful room e) t
termination_by 4 * room + 2
decreasing_by all_goals omega

theorem accesses_careful (room : Nat) (e : Expr) : Careful 0 (accesses room e) := by
  rw [accesses]
  refine .peek fun t => ?_
  split
  · rename_i ht
    refine .nested fun r hr => .advance ht nofun <| .bind (.identifier _) fun name =>
      .bind (.accept (by decide)) fun found => ?_
    cases found with
    | true =>
      exact .bind (.listUpTo (by decide) _ (expressionAbove_careful r 0)) fun args =>
        accesses_careful r _
    | false => exact accesses_careful r _
  · rename_i ht
    exact .nested fun r hr => .advance ht nofun <| .bind (expressionAbove_careful r 0) fun i =>
      .bind (.expect (by decide) _) fun _ => accesses_careful r _
  · rename_i ht
    refine .nested fun r hr => ?_
    split
    · exact .advance ht nofun <| .bind (.listUpTo (by decide) _ (expressionAbove_careful r 0))
        fun args => accesses_careful r _
    · exact .report _
  · exact .pure _
termination_by 4 * room
decreasing_by all_goals omega

theorem primary_careful (room : Nat) : Careful 0 (primary room) := by
  rw [primary]
  refine .peek fun t => ?_
  split
  iterate 6
    rename_i ht
    exact .advance ht nofun (.pure _)
  · rename_i ht
    exact .nested fun r hr => .advance ht nofun <| .bind (expressionAbove_careful r 0) fun e =>
      (Careful.expect (by decide) _).map _
  · rename_i ht
    exact .nested fun r hr => .advance ht nofun <|
      (Careful.listUpTo (by decide) _ (expressionAbove_careful r 0)).map _
  · exact .report _
termination_by 4 * room + 1
decreasing_by all_goals omega

end

theorem expression_careful (room : Nat) : Careful 0 (expression room) :=
  expressionAbove_careful room 0

/-! ## Statements -/

/-- No block is read where none begins. -/
theorem block_careful (room n : Nat) : Careful n (block room) := by
  intro _ s hs _
  rw [block, bind_apply, expect, peek_bind, if_neg hs.head]
  exact CarefulAt.report (α := List Stmt) _ s hs rfl

theorem conditional_careful (room n : Nat) {t : Token} (ht : t.kind = .ifWord) :
    CarefulAt t n (conditional (expression room) (block room)) := by
  have harm : ∀ n, CarefulAt t n (arm (expression room) (block room)) := fun n =>
    .advance ht nofun <| .bind (expression_careful room) fun _ => .never (block_careful room) _
  intro s hs hhead
  have h := harm n s hs hhead
  have hnone := Careful.eq_none harm hs hhead
  rw [conditional]
  split
  · rename_i u hread
    rw [hread] at h
    exact h.of_none
  all_goals
    rename_i hread
    rw [hread] at hnone
    cases hnone

theorem valued_careful (room : Nat) (what : Expectation) (make : Expr → Stmt) : Careful 1 (do
    let e ← expression room
    expect .semicolon what
    return make e) :=
  .bind (expression_careful room) fun _ => (Careful.semicolon what).map _

/-- A statement ends with its only semicolon. -/
theorem statement_careful (room : Nat) : Careful 1 (statement room) := by
  rw [statement]
  refine .peek fun t => ?_
  cases ht : t.kind with
  | letWord =>
    exact .advance ht nofun <| .bind (.identifier _) fun name =>
      .bind (.expect (by decide) _) fun _ => valued_careful room _ _
  | ifWord => exact conditional_careful room 1 ht
  | whileWord =>
    exact .advance ht nofun <| .bind (expression_careful room) fun _ => (block_careful room 1).map _
  | forWord =>
    exact .advance ht nofun <| .bind (.identifier _) fun name =>
      .bind (.expect (by decide) _) fun _ => .bind (expression_careful room) fun _ =>
        (block_careful room 1).map _
  | checkpointWord =>
    exact .advance ht nofun <| .bind .checkpointName fun _ => (block_careful room 1).map _
  | leftBrace => exact ((block_careful room 1).map _) t
  | ident name =>
    exact .second ht nofun (by decide) (valued_careful room _ _) (valued_careful room _ _ t)
  | _ => exact valued_careful room _ _ t

end Parser
end Script
end CheckScript
