/-
The parser gets on to the end of the script.

The loops over statements are written here as the steps that they take (`Turn`, `Turns`),
without the check that a step passes a word.  A statement that is read passes its first word.
One that is not read either has passed its first word too, or it has stopped at a word where
skipping does not stop (`recover_shorter`).  The one exception is a closing brace, which ends
the loop of a block and is passed by the loop over the whole script.  So every turn is shorter
than the one before, and the check never changes what the loops do (`turns_iff`).
-/
import CheckScript.Proofs.Script.Derivation
import CheckScript.Proofs.Script.Invariant

namespace CheckScript
namespace Script

namespace TokenKind

/-- Words in front of which skipping stops. -/
def stopsSkipping : TokenKind → Bool
  | rightBrace | letWord | ifWord | whileWord | forWord | checkpointWord => true
  | _ => false

/-- Words that only statements begin with. -/
def opensStatement : TokenKind → Bool
  | letWord | ifWord | whileWord | forWord | checkpointWord | leftBrace => true
  | _ => false

theorem ne_finish_of_opensStatement {k : TokenKind} (h : k.opensStatement = true) :
    k ≠ .finish := by
  rintro rfl
  cases h

theorem stopsSkipping_eq_false {k : TokenKind} (hopens : k.opensStatement = false)
    (hbrace : k ≠ .rightBrace) : k.stopsSkipping = false := by
  cases k with
  | rightBrace => exact absurd rfl hbrace
  | letWord | ifWord | whileWord | forWord | checkpointWord => cases hopens
  | _ => rfl

end TokenKind

namespace Parser

/-! ## What is left gets shorter -/

theorem shorter_stable (n : Nat) : Stable fun s => s.rest.length < n where
  pass hrest h := by
    rw [hrest, List.length_cons] at h
    exact Nat.lt_of_succ_lt h
  report _ h := h
  back hs _ := hs

/-- What is left is an end of what there was, in front of the same mark. -/
theorem behind_stable (ts : List Token) (finish : Token) :
    Stable fun s => s.rest <:+ ts ∧ s.finish = finish where
  pass hrest h := ⟨(List.suffix_cons ..).trans (hrest ▸ h.1), h.2⟩
  report _ h := h
  back hs ht := ⟨hs.1, ht.2⟩

theorem rest_ne_nil_of_head {s : State} (hfinish : s.finish.kind = .finish)
    (hhead : s.head.kind ≠ .finish) : s.rest ≠ [] := by
  obtain ⟨rest, hrest⟩ := rest_of_head hfinish hhead
  rw [hrest]
  exact List.cons_ne_nil _ _

theorem advance_shorter {s : State} (h : s.rest ≠ []) :
    (advance s).2.rest.length < s.rest.length := by
  unfold advance
  split
  · rename_i hrest
    exact absurd hrest h
  · rename_i t rest hrest
    rw [hrest]
    exact Nat.lt_succ_self _

section

variable {α β : Type}

/-- The first word is passed, whatever is made of the others. -/
theorem advance_bind_shorter {s : State} {f : Token → Parser β} (h : s.rest ≠ [])
    (hf : ∀ n t, Preserves (fun u => u.rest.length < n) (f t)) :
    ((advance >>= f) s).2.rest.length < s.rest.length :=
  bind_preserves (hf _) (advance_shorter h)

/-- Where `t` is the next word, every value has taken a word. -/
def TakesAt (t : Token) (p : Parser α) : Prop :=
  ∀ s : State, s.finish.kind = .finish → s.head = t → (p s).1 ≠ none →
    (p s).2.rest.length < s.rest.length

def Takes (p : Parser α) : Prop := ∀ t, TakesAt t p

namespace TakesAt

variable {t : Token}

theorem report (problem : TokenKind → Problem) : TakesAt t (report problem : Parser α) :=
  fun _ _ _ h => absurd rfl h

theorem advance {f : Token → Parser β} {kind : TokenKind} (ht : t.kind = kind)
    (hkind : kind ≠ .finish) (hf : ∀ n t, Preserves (fun u => u.rest.length < n) (f t)) :
    TakesAt t (advance >>= f) := by
  intro s hfinish hhead _
  refine advance_bind_shorter (rest_ne_nil_of_head hfinish ?_) hf
  rwa [hhead, ht]

theorem nested {room : Nat} {p : (r : Nat) → r < room → Parser α}
    (h : ∀ r hr, TakesAt t (p r hr)) : TakesAt t (nested room p) := by
  cases room with
  | zero => exact report .tooDeep
  | succ r => exact h r (Nat.lt_succ_self r)

theorem second {f : Option TokenKind → Parser β} (h : ∀ next, TakesAt t (f next)) :
    TakesAt t (second >>= f) := by
  intro s hfinish hhead
  exact h s.second? s hfinish hhead

theorem bind {p : Parser α} {f : α → Parser β} (hp : TakesAt t p)
    (hf : ∀ n a, Preserves (fun u => u.rest.length < n) (f a)) : TakesAt t (p >>= f) := by
  intro s hfinish hhead h
  have hshort := hp s hfinish hhead
  rw [bind_apply] at h ⊢
  split at h
  · rename_i a u hs
    rw [hs] at hshort
    exact hf _ a u (hshort (Option.some_ne_none _))
  · exact absurd rfl h

end TakesAt

namespace Takes

theorem peek {f : Token → Parser β} (h : ∀ t, TakesAt t (f t)) : Takes (peek >>= f) := by
  intro t s hfinish _
  exact h s.head s hfinish rfl

theorem bind {p : Parser α} {f : α → Parser β} (hp : Takes p)
    (hf : ∀ n a, Preserves (fun u => u.rest.length < n) (f a)) : Takes (p >>= f) :=
  fun t => (hp t).bind hf

end Takes

end

/-! ## Expressions -/

theorem primary_takes (room : Nat) : Takes (primary room) := by
  rw [primary]
  refine .peek fun t => ?_
  split
  iterate 6
    rename_i ht
    exact .advance ht (by rintro ⟨⟩) fun n _ => .pure _
  · rename_i ht
    refine .nested fun r _ => .advance ht (by decide) fun n _ => ?_
    exact .bind ((shorter_stable n).expressionAbove r 0) fun e =>
      .bind ((shorter_stable n).expect _ _) fun _ => .pure e
  · rename_i ht
    refine .nested fun r _ => .advance ht (by decide) fun n _ => ?_
    exact .bind ((shorter_stable n).listUpTo _ _ ((shorter_stable n).expressionAbove r 0))
      fun _ => .pure _
  · exact .report _

theorem unary_takes (room : Nat) : Takes (unary room) := by
  rw [unary]
  refine .peek fun t => ?_
  split
  · rename_i op hop
    have ht := UnaryOp.ofToken_eq_some.mp hop
    exact .nested fun r _ => .advance ht op.word_ne_finish fun n _ =>
      .bind ((shorter_stable n).unary r) fun _ => .pure _
  · exact (primary_takes room).bind (fun n e => (shorter_stable n).accesses room e) t

theorem expressionAbove_takes (room min : Nat) : Takes (expressionAbove room min) := by
  rw [expressionAbove]
  exact (unary_takes room).bind fun n left => (shorter_stable n).operators room min left

/-! ## Statements -/

/-- Behind the opening brace of a block. -/
theorem Stable.braced {I : State → Prop} (hI : Stable I) (room : Nat) :
    Preserves I (Parser.nested room fun r _ => do
      let stmts ← fun s =>
        let found := Parser.statementsUntil (some .rightBrace) (Parser.statement r) s
        (some found.1, found.2)
      Parser.expect .rightBrace .blockEnd
      return stmts) := by
  refine hI.nested fun r _ => .bind ?_ fun _ => .bind (hI.expect _ _) fun _ => .pure _
  exact fun _ h => hI.statementsUntil _ (hI.statement r) h

theorem expect_shorter {s : State} {kind : TokenKind} (hfinish : s.finish.kind = .finish)
    (hkind : kind ≠ .finish) (h : s.head.kind = kind) (what : Expectation) :
    (expect kind what s).2.rest.length < s.rest.length := by
  obtain ⟨rest, hrest⟩ := rest_of_head hfinish (h ▸ hkind)
  rw [expect_cons what hrest h, hrest]
  exact Nat.lt_succ_self _

theorem block_shorter {s : State} (room : Nat) (hfinish : s.finish.kind = .finish)
    (h : s.head.kind = .leftBrace) : (block room s).2.rest.length < s.rest.length := by
  rw [block]
  exact bind_preserves (fun _ => (shorter_stable _).braced room)
    (expect_shorter hfinish (by decide) h _)

theorem arm_shorter {cond : Parser Expr} {body : Parser (List Stmt)} {s : State}
    (hcond : ∀ n, Preserves (fun u => u.rest.length < n) cond)
    (hbody : ∀ n, Preserves (fun u => u.rest.length < n) body) (h : s.rest ≠ []) :
    (arm cond body s).2.rest.length < s.rest.length :=
  advance_bind_shorter h fun n _ => .bind (hcond n) fun _ => .bind (hbody n) fun _ =>
    .bind ((shorter_stable n).accept _) fun _ => .pure _

theorem arm_grammar_shorter (room : Nat) {s : State} (h : s.rest ≠ []) :
    (arm (expression room) (block room) s).2.rest.length < s.rest.length :=
  arm_shorter (fun n => (shorter_stable n).expression room)
    (fun n => (shorter_stable n).block room) h

/-- A word that only statements begin with is passed, also if the statement cannot be read. -/
theorem statement_shorter {s : State} (room : Nat) (hfinish : s.finish.kind = .finish)
    (h : s.head.kind.opensStatement = true) :
    (statement room s).2.rest.length < s.rest.length := by
  have hne := rest_ne_nil_of_head hfinish (TokenKind.ne_finish_of_opensStatement h)
  rw [statement, peek_bind]
  cases hkind : s.head.kind with
  | letWord =>
    refine advance_bind_shorter hne fun n _ => ?_
    have hstable := shorter_stable n
    exact .bind (hstable.identifier _) fun name => .bind (hstable.expect _ _) fun _ =>
      hstable.valued room _ _
  | ifWord =>
    exact (shorter_stable _).conditional_behind ((shorter_stable _).expression room)
      ((shorter_stable _).block room) (arm_grammar_shorter room hne)
  | whileWord =>
    refine advance_bind_shorter hne fun n _ => ?_
    have hstable := shorter_stable n
    exact .bind (hstable.expression room) fun _ => .bind (hstable.block room) fun _ => .pure _
  | forWord =>
    refine advance_bind_shorter hne fun n _ => ?_
    have hstable := shorter_stable n
    exact .bind (hstable.identifier _) fun _ => .bind (hstable.expect _ _) fun _ =>
      .bind (hstable.expression room) fun _ => .bind (hstable.block room) fun _ => .pure _
  | checkpointWord =>
    refine advance_bind_shorter hne fun n _ => ?_
    have hstable := shorter_stable n
    exact .bind hstable.checkpointName fun _ => .bind (hstable.block room) fun _ => .pure _
  | leftBrace =>
    have hblock := block_shorter room hfinish hkind
    exact bind_preserves (I := fun u => u.rest.length < s.rest.length) (fun _ => .pure _) hblock
  | _ =>
    rw [hkind] at h
    cases h

/-- A statement that is read has taken a word. -/
theorem statement_takes (room : Nat) : Takes (statement room) := by
  have hevaluate : ∀ t : Token, Takes (do
      let e ← expression room
      expect .semicolon .expressionEnd
      return Stmt.evaluate t.place.line e) := fun t =>
    (expressionAbove_takes room 0).bind fun n e =>
      .bind ((shorter_stable n).expect _ _) fun _ => .pure _
  intro t s hfinish hhead hsome
  by_cases hopens : s.head.kind.opensStatement = true
  · exact statement_shorter room hfinish hopens
  · revert hsome
    rw [statement, peek_bind, hhead]
    cases ht : t.kind with
    | letWord | ifWord | whileWord | forWord | checkpointWord | leftBrace =>
      rw [hhead, ht] at hopens
      exact absurd rfl hopens
    | ident name =>
      refine TakesAt.second (fun next => ?_) s hfinish hhead
      split
      · exact .advance ht nofun fun n _ => .bind (shorter_stable n).advance fun _ =>
          (shorter_stable n).valued room _ _
      · exact hevaluate t t
    | _ => exact hevaluate t t s hfinish hhead

theorem statement_passes {room : Nat} {s t : State} {stmt : Stmt}
    (hfinish : s.finish.kind = .finish) (h : statement room s = (some stmt, t)) :
    t.rest.length < s.rest.length := by
  have hshort := statement_takes room s.head s hfinish rfl
  rw [h] at hshort
  exact hshort (Option.some_ne_none _)

/-! ## Skipping -/

theorem skipStatement_shorter {t : Token} (rest : List Token)
    (h : t.kind.stopsSkipping = false) :
    (skipStatement (t :: rest)).length < (t :: rest).length := by
  unfold skipStatement
  split
  · exact Nat.lt_succ_self _
  · rename_i hkind
    rw [hkind] at h
    cases h
  iterate 5
    rename_i hkind
    rw [hkind] at h
    cases h
  exact Nat.lt_succ_of_le (skipStatement_suffix rest).length_le

theorem recover_behind {s t : State} (h : t.rest <:+ s.rest ∧ t.finish = s.finish) :
    (recover t).rest <:+ s.rest ∧ (recover t).finish = s.finish :=
  (behind_stable s.rest s.finish).recover h

theorem statement_behind (room : Nat) (s : State) :
    (statement room s).2.rest <:+ s.rest ∧ (statement room s).2.finish = s.finish :=
  (behind_stable s.rest s.finish).statement room s ⟨List.suffix_refl _, rfl⟩

/-- Behind a statement that could not be read a word has been passed or is skipped. -/
theorem recover_shorter {room : Nat} {s t : State} (hfinish : s.finish.kind = .finish)
    (hrest : s.rest ≠ []) (hbrace : s.head.kind ≠ .rightBrace)
    (h : statement room s = (none, t)) : (recover t).rest.length < s.rest.length := by
  have hbehind := statement_behind room s
  rw [h] at hbehind
  have hskip : (recover t).rest.length ≤ t.rest.length := (skipStatement_suffix t.rest).length_le
  by_cases hpassed : t.rest.length < s.rest.length
  · exact Nat.lt_of_le_of_lt hskip hpassed
  · -- no word has been passed, so that the next one does not open a statement
    have hsame : t.rest = s.rest :=
      hbehind.1.eq_of_length (Nat.le_antisymm hbehind.1.length_le (Nat.not_lt.mp hpassed))
    have hopens : s.head.kind.opensStatement = false := by
      refine Bool.eq_false_iff.mpr fun hopens => hpassed ?_
      have hshort := statement_shorter room hfinish hopens
      rwa [h] at hshort
    have hstops := TokenKind.stopsSkipping_eq_false hopens hbrace
    unfold recover
    rw [hsame]
    unfold State.head at hstops
    split at hstops
    · rename_i hnil
      exact absurd hnil hrest
    · rename_i u rest hcons
      rw [hcons]
      exact skipStatement_shorter rest hstops

/-- A closing brace begins nothing, and skipping does not pass it. -/
theorem recover_brace {room : Nat} {s t : State} (hbrace : s.head.kind = .rightBrace)
    (h : statement room s = (none, t)) : (recover t).rest = s.rest := by
  have hfails : (statement room s).2.rest = s.rest := by
    rw [statement, peek_bind, hbrace]
    simp only [expression]
    rw [bind_apply, expressionAbove, bind_apply, unary_plain room (by rw [hbrace]; rfl), bind_apply,
      primary, peek_bind, hbrace]
    rfl
  rw [h] at hfails
  change skipStatement t.rest = s.rest
  rw [hfails]
  unfold State.head at hbrace
  split at hbrace
  · rename_i hnil
    rw [hnil]
    rfl
  · rename_i u rest hcons
    rw [hcons, skipStatement, hbrace]

/-! ## The loops -/

/-- One turn of a loop over statements.  Only where no word ends the loop it is looked at
whether a word was passed; if not, the next one is. -/
def turn (closing : Option TokenKind) (room : Nat) (s : State) : Option Stmt × State :=
  match statement room s with
  | (some stmt, t) => (some stmt, t)
  | (none, t) =>
    if closing = none ∧ (recover t).rest.length = s.rest.length then (none, (advance (recover t)).2)
    else (none, recover t)

/-- The turns of a loop from `s` on, the statements that they read, and where the loop ends. -/
inductive Turns (closing : Option TokenKind) (room : Nat) : State → List Stmt → State → Prop where
  | done {s : State} (h : s.rest = [] ∨ some s.head.kind = closing) : Turns closing room s [] s
  | turn {s t u : State} {found : Option Stmt} {ss : List Stmt} (hrest : s.rest ≠ [])
      (hclosing : some s.head.kind ≠ closing) (h : turn closing room s = (found, t))
      (hs : Turns closing room t ss u) : Turns closing room s (found.toList ++ ss) u

/-- The loop over a script and those over its blocks. -/
def EndsLoop (closing : Option TokenKind) : Prop := closing = none ∨ closing = some .rightBrace

section

variable {closing : Option TokenKind} {s : State}

theorem advance_behind (s : State) :
    (advance s).2.rest <:+ s.rest ∧ (advance s).2.finish = s.finish :=
  (behind_stable s.rest s.finish).advance s ⟨List.suffix_refl _, rfl⟩

theorem turn_behind (closing : Option TokenKind) (room : Nat) (s : State) :
    (turn closing room s).2.rest <:+ s.rest ∧ (turn closing room s).2.finish = s.finish := by
  have hbehind := statement_behind room s
  unfold turn
  split
  · rename_i stmt t hs
    rwa [hs] at hbehind
  · rename_i t hs
    rw [hs] at hbehind
    have hrecover := recover_behind hbehind
    split
    · have hadvance := advance_behind (recover t)
      exact ⟨hadvance.1.trans hrecover.1, hadvance.2.trans hrecover.2⟩
    · exact hrecover

/-- A turn goes on where the loop of the parser goes on, and a word is passed. -/
theorem turn_onward (room : Nat) (hends : EndsLoop closing) (hfinish : s.finish.kind = .finish)
    (hrest : s.rest ≠ []) (hclosing : some s.head.kind ≠ closing) :
    (turn closing room s).2.rest.length < s.rest.length ∧
      statementsUntil closing (statement room) s =
        ((turn closing room s).1.toList ++
            (statementsUntil closing (statement room) (turn closing room s).2).1,
          (statementsUntil closing (statement room) (turn closing room s).2).2) := by
  unfold turn
  rw [statementsUntil, dif_neg hrest, if_neg hclosing]
  cases hs : statement room s with | mk found t => ?_
  cases found with
  | some stmt =>
    have hlt := statement_passes hfinish hs
    simp only [onward_of_lt hlt]
    exact ⟨hlt, rfl⟩
  | none =>
    simp only
    by_cases hbrace : s.head.kind = .rightBrace
    · have hsame := recover_brace hbrace hs
      obtain rfl : closing = none :=
        hends.resolve_right fun h => hclosing (h ▸ congrArg some hbrace)
      have hlength : (recover t).rest.length = s.rest.length := congrArg List.length hsame
      have honward : onward s (recover t) = (advance (recover t)).2 := by
        unfold onward advance
        rw [if_neg (Nat.not_lt_of_le (Nat.le_of_eq hlength.symm)), hsame]
        cases hcons : s.rest with
        | nil => exact absurd hcons hrest
        | cons u rest => rfl
      rw [if_pos ⟨rfl, hlength⟩]
      refine ⟨?_, by rw [honward]; rfl⟩
      rw [← hlength]
      exact advance_shorter (hsame ▸ hrest)
    · have hshort := recover_shorter hfinish hrest hbrace hs
      rw [if_neg fun h => Nat.ne_of_lt hshort h.2, onward_of_lt hshort]
      exact ⟨hshort, rfl⟩

theorem turn_shorter (room : Nat) (hends : EndsLoop closing) (hfinish : s.finish.kind = .finish)
    (hrest : s.rest ≠ []) (hclosing : some s.head.kind ≠ closing) :
    (turn closing room s).2.rest.length < s.rest.length :=
  (turn_onward room hends hfinish hrest hclosing).1

theorem turns_statementsUntil (room : Nat) (s : State) (hends : EndsLoop closing)
    (hfinish : s.finish.kind = .finish) :
    Turns closing room s (statementsUntil closing (statement room) s).1
      (statementsUntil closing (statement room) s).2 := by
  by_cases hend : s.rest = [] ∨ some s.head.kind = closing
  · rw [statementsUntil_end hend]
    exact .done hend
  · obtain ⟨hrest, hclosing⟩ := not_or.mp hend
    obtain ⟨hshort, hround⟩ := turn_onward room hends hfinish hrest hclosing
    have hbehind := turn_behind closing room s
    generalize hturn : turn closing room s = r at hshort hround hbehind
    have hothers := turns_statementsUntil room r.2 hends (by rw [hbehind.2, hfinish])
    rw [hround]
    exact .turn hrest hclosing hturn hothers
termination_by s.rest.length

/-- The loops end, with what the parser finds, and in no other way. -/
theorem turns_iff (room : Nat) (hends : EndsLoop closing) (hfinish : s.finish.kind = .finish)
    {ss : List Stmt} {u : State} :
    Turns closing room s ss u ↔ statementsUntil closing (statement room) s = (ss, u) := by
  refine ⟨fun h => ?_, fun h => ?_⟩
  · induction h with
    | done h => exact statementsUntil_end h
    | @turn s t u found ss hrest hclosing h _ ih =>
      have hbehind := turn_behind closing room s
      have hround := (turn_onward room hends hfinish hrest hclosing).2
      rw [h] at hbehind hround
      rw [hround, ih (hbehind.2 ▸ hfinish)]
  · have hturns := turns_statementsUntil room s hends hfinish
    rwa [h] at hturns

end

/-- The end of the loop over a script. -/
theorem turns_end {room : Nat} {s u : State} {ss : List Stmt} (h : Turns none room s ss u) :
    u.rest = [] := by
  induction h with
  | done h => exact h.resolve_right (Option.some_ne_none _)
  | turn _ _ _ _ ih => exact ih

theorem turns_finish {closing : Option TokenKind} {room : Nat} {s u : State} {ss : List Stmt}
    (h : Turns closing room s ss u) : u.finish = s.finish := by
  induction h with
  | done _ => rfl
  | @turn s t _ found _ _ _ h _ ih =>
    have hbehind := turn_behind closing room s
    rw [h] at hbehind
    exact ih.trans hbehind.2

/-- The index of the next word, if `tokens` were given to the parser: nothing behind the first
mark of the end is ever looked at. -/
def State.index (tokens : List Token) (s : State) : Nat :=
  (State.ofTokens tokens).rest.length - s.rest.length

/-- The first mark of the end. -/
def firstFinish (tokens : List Token) : Nat := tokens.findIdx fun t => t.kind == .finish

theorem ofTokens_length (tokens : List Token) (h : ∃ t ∈ tokens, t.kind = .finish) :
    (State.ofTokens tokens).rest.length = firstFinish tokens ∧
      tokens[firstFinish tokens]? = some (State.ofTokens tokens).finish ∧
      (State.ofTokens tokens).finish.kind = .finish := by
  obtain ⟨t, ht, hkind⟩ := h
  have hlt : firstFinish tokens < tokens.length :=
    List.findIdx_lt_length_of_exists ⟨t, ht, beq_iff_eq.mpr hkind⟩
  have hfind : tokens.find? (fun t => t.kind == .finish) = some tokens[firstFinish tokens] := by
    rw [List.find?_eq_getElem?_findIdx]
    exact List.getElem?_eq_getElem hlt
  refine ⟨?_, ?_, ?_⟩
  · change (tokens.takeWhile fun t => t.kind != .finish).length = _
    rw [List.takeWhile_eq_take_findIdx_not, List.length_take]
    simp only [bne, Bool.not_not]
    exact Nat.min_eq_left (Nat.le_of_lt hlt)
  · change _ = some ((tokens.find? fun t => t.kind == .finish).getD _)
    rw [hfind]
    exact List.getElem?_eq_getElem hlt
  · change ((tokens.find? fun t => t.kind == .finish).getD _).kind = _
    rw [hfind]
    exact beq_iff_eq.mp (List.findIdx_getElem (w := hlt))

end Parser

open CheckScript.Script.Parser

/-- Whatever the tokens are, the loop over the script ends, by its own turns, with the first mark
of the end as the next token.  It and the loops over blocks take just the turns of the parser, and
each turn passes a token.  So does each expression of a list and each condition of a chain, over
which the other loops of the grammar go. -/
theorem parse_ends {tokens : List Token} {finish : Token} (hfinish : finish.kind = .finish) :
    (∃ s, Turns none maxNesting (.ofTokens (tokens ++ [finish]))
        (parse (tokens ++ [finish])).1.stmts s ∧
      s.diagnostics = (parse (tokens ++ [finish])).2 ∧ s.rest = [] ∧
      s.index (tokens ++ [finish]) = firstFinish (tokens ++ [finish]) ∧
      (tokens ++ [finish])[s.index (tokens ++ [finish])]? = some s.finish ∧
      s.finish.kind = .finish) ∧
    (∀ closing room s, EndsLoop closing → s.finish.kind = .finish →
      (∀ ss u, Turns closing room s ss u ↔
        statementsUntil closing (statement room) s = (ss, u)) ∧
      (s.rest ≠ [] → some s.head.kind ≠ closing →
        (turn closing room s).2.rest.length < s.rest.length ∧
          (turn closing room s).2.rest <:+ s.rest ∧
          (turn closing room s).2.finish = s.finish)) ∧
    ∀ room s, s.finish.kind = .finish →
      ((expression room s).1 ≠ none → (expression room s).2.rest.length < s.rest.length) ∧
      (s.rest ≠ [] →
        (arm (expression room) (block room) s).2.rest.length < s.rest.length) := by
  refine ⟨?_, fun closing room s hends hfinish =>
    ⟨fun ss u => turns_iff room hends hfinish, fun hrest hclosing =>
      ⟨turn_shorter room hends hfinish hrest hclosing, turn_behind closing room s⟩⟩,
    fun room s hfinish =>
      ⟨expressionAbove_takes room 0 s.head s hfinish rfl, arm_grammar_shorter room⟩⟩
  obtain ⟨hlength, hmark, hkind⟩ := ofTokens_length (tokens ++ [finish])
    ⟨finish, List.mem_append_right _ List.mem_cons_self, hfinish⟩
  have hturns := turns_statementsUntil maxNesting (.ofTokens (tokens ++ [finish])) (.inl rfl) hkind
  have hrest := turns_end hturns
  have hsame := turns_finish hturns
  have hindex : State.index (tokens ++ [finish]) _ = firstFinish (tokens ++ [finish]) :=
    (congrArg (fun rest => (State.ofTokens (tokens ++ [finish])).rest.length - rest.length)
      hrest).trans hlength
  refine ⟨_, hturns, rfl, hrest, hindex, ?_, ?_⟩
  · rw [hindex, hsame]
    exact hmark
  · rw [hsame]
    exact hkind

/-- `} let else`, then a mark of the end with more words behind it. -/
def malformed : List Token :=
  [⟨.rightBrace, ⟨1, 1⟩⟩, ⟨.letWord, ⟨1, 3⟩⟩, ⟨.elseWord, ⟨1, 7⟩⟩, ⟨.finish, ⟨1, 11⟩⟩,
    ⟨.inWord, ⟨1, 12⟩⟩]

theorem parse_ends_malformed :
    (⟨.finish, ⟨1, 14⟩⟩ : Token).kind = .finish ∧
    firstFinish (malformed ++ [⟨.finish, ⟨1, 14⟩⟩]) = 3 ∧
    (parse (malformed ++ [⟨.finish, ⟨1, 14⟩⟩])).2 =
      [⟨⟨1, 1⟩, .expected .expression .rightBrace⟩, ⟨⟨1, 7⟩, .expected .variableName .elseWord⟩] ∧
    ∃ s, Turns none maxNesting (.ofTokens (malformed ++ [⟨.finish, ⟨1, 14⟩⟩])) [] s ∧
      s.index (malformed ++ [⟨.finish, ⟨1, 14⟩⟩]) = 3 := by
  have hfirst : firstFinish (malformed ++ [⟨.finish, ⟨1, 14⟩⟩]) = 3 := by decide
  have hreports : (parse (malformed ++ [⟨.finish, ⟨1, 14⟩⟩])).2 =
      [⟨⟨1, 1⟩, .expected .expression .rightBrace⟩,
        ⟨⟨1, 7⟩, .expected .variableName .elseWord⟩] := by decide +kernel
  have hnone : (parse (malformed ++ [⟨.finish, ⟨1, 14⟩⟩])).1.stmts.length = 0 := by decide +kernel
  obtain ⟨⟨s, hturns, -, -, hindex, -⟩, -⟩ :=
    @parse_ends malformed ⟨.finish, ⟨1, 14⟩⟩ rfl
  rw [List.length_eq_zero_iff.mp hnone] at hturns
  exact ⟨rfl, hfirst, hreports, s, hturns, hindex.trans hfirst⟩

end Script
end CheckScript
