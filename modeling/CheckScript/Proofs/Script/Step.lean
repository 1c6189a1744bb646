/-
What the steps of the parser do when the next words are known.
-/
import CheckScript.Proofs.Script.Grammar

namespace CheckScript
namespace Script
namespace Parser

theorem bind_some {α β : Type} {p : Parser α} {f : α → Parser β} {s t : State} {a : α}
    (h : p s = (some a, t)) : (p >>= f) s = f a t := by
  rw [bind_apply, h]

theorem peek_bind {α : Type} (f : Token → Parser α) (s : State) :
    (peek >>= f) s = f s.head s := rfl

theorem peek_cons {α : Type} (f : Token → Parser α) {s : State} {a : Token} {rest : List Token}
    (hs : s.rest = a :: rest) : (peek >>= f) s = f a s := by
  rw [peek_bind, State.head, hs]

theorem head_cons (t : Token) (rest : List Token) (finish : Token) (reports : List Diagnostic) :
    State.head ⟨t :: rest, finish, reports⟩ = t := rfl

theorem nested_succ {α : Type} (room : Nat) (p : (r : Nat) → r < room + 1 → Parser α) :
    nested (room + 1) p = p room (Nat.lt_succ_self room) := rfl

theorem advance_cons {s : State} {a : Token} {rest : List Token} (hs : s.rest = a :: rest) :
    advance s = (some a, { s with rest := rest }) := by
  unfold advance
  rw [hs]

theorem expect_cons {s : State} {a : Token} {rest : List Token} {kind : TokenKind}
    (what : Expectation) (hs : s.rest = a :: rest) (ha : a.kind = kind) :
    expect kind what s = (some (), { s with rest := rest }) := by
  refine (peek_cons _ hs).trans ?_
  rw [if_pos ha]
  exact bind_some (advance_cons hs)

theorem identifier_cons {s : State} {a : Token} {rest : List Token} {name : String}
    (what : Expectation) (hs : s.rest = a :: rest) (ha : a.kind = .ident name) :
    identifier what s = (some name, { s with rest := rest }) := by
  refine (peek_cons _ hs).trans ?_
  rw [ha]
  exact bind_some (advance_cons hs)

theorem checkpointName_cons {s : State} {a : Token} {rest : List Token} {name : String}
    (hs : s.rest = a :: rest) (ha : a.kind = .str name) :
    checkpointName s = (some name, { s with rest := rest }) := by
  refine (peek_cons _ hs).trans ?_
  rw [ha]
  exact bind_some (advance_cons hs)

theorem accept_head {s : State} {kind : TokenKind} (h : s.head.kind ≠ kind) :
    accept kind s = (some false, s) := by
  refine (bind_some rfl).trans ?_
  rw [if_neg h]
  rfl

theorem accept_cons {s : State} {a : Token} {rest : List Token} {kind : TokenKind}
    (hs : s.rest = a :: rest) (ha : a.kind = kind) :
    accept kind s = (some true, { s with rest := rest }) := by
  refine (peek_cons _ hs).trans ?_
  rw [if_pos ha]
  exact bind_some (advance_cons hs)

theorem ofTokens_append {tokens : List Token} {finish : Token}
    (htokens : ∀ t ∈ tokens, t.kind ≠ .finish) (hfinish : finish.kind = .finish) :
    State.ofTokens (tokens ++ [finish]) = ⟨tokens, finish, []⟩ := by
  have hkeep : ∀ t ∈ tokens, (t.kind != .finish) = true := fun t ht =>
    bne_iff_ne.mpr (htokens t ht)
  have hfind : tokens.find? (fun t => t.kind == .finish) = none :=
    List.find?_eq_none.mpr fun t ht => by simpa using hkeep t ht
  unfold State.ofTokens
  rw [List.takeWhile_append_of_pos hkeep, List.find?_append, hfind]
  simp [hfinish]

/-! ## Expressions -/

section

variable {room min : Nat} {s s' : State} {t finish : Token} {us rest : List Token}
  {reports : List Diagnostic} {e : Expr}

theorem expressionAbove_operators (min : Nat) (h : unary room s = (some e, s')) :
    expressionAbove room min s = operators room min e s' := by
  rw [expressionAbove]
  exact bind_some h

theorem operators_end (room : Nat) (e : Expr)
    (h : ∀ op : BinaryOp, s.head.kind = op.word → op.level ≤ min) :
    operators room min e s = (some e, s) := by
  rw [operators, peek_bind]
  cases hop : BinaryOp.ofToken s.head.kind with
  | none => rfl
  | some op =>
    simp only
    rw [if_pos (h op (BinaryOp.ofToken_eq_some.mp hop))]
    rfl

theorem operators_binary {op : BinaryOp} {left right : Expr} (ht : t.kind = op.word)
    (hmin : min < op.level)
    (hright : expressionAbove room op.level ⟨us, finish, reports⟩ = (some right, s')) :
    operators (room + 1) min left ⟨t :: us, finish, reports⟩ =
      operators room min (.binary t.place op left right) s' := by
  have hop : BinaryOp.ofToken t.kind = some op := BinaryOp.ofToken_eq_some.mpr ht
  rw [operators, peek_bind, head_cons, hop]
  simp only
  rw [if_neg (Nat.not_le_of_lt hmin), nested_succ]
  exact (bind_some (advance_cons rfl)).trans (bind_some hright)

theorem unary_signed {op : UnaryOp} (ht : t.kind = op.word)
    (h : unary room ⟨us, finish, reports⟩ = (some e, s')) :
    unary (room + 1) ⟨t :: us, finish, reports⟩ = (some (.unary t.place op e), s') := by
  have hop : UnaryOp.ofToken t.kind = some op := UnaryOp.ofToken_eq_some.mpr ht
  rw [unary, peek_bind, head_cons, hop]
  exact (bind_some (advance_cons rfl)).trans (bind_some h)

theorem unary_plain (room : Nat) (h : UnaryOp.ofToken s.head.kind = none) :
    unary room s = (primary room >>= accesses room) s := by
  rw [unary, peek_bind, h]

theorem accesses_end (room : Nat) (e : Expr) (hdot : s.head.kind ≠ .dot)
    (hbracket : s.head.kind ≠ .leftBracket) (hparen : s.head.kind ≠ .leftParen) :
    accesses room e s = (some e, s) := by
  rw [accesses, peek_bind]
  cases hkind : s.head.kind with
  | dot => exact absurd hkind hdot
  | leftBracket => exact absurd hkind hbracket
  | leftParen => exact absurd hkind hparen
  | _ => rfl

theorem accesses_field {dot : Token} {name : String} (hdot : dot.kind = .dot)
    (ht : t.kind = .ident name) (hparen : (State.head ⟨us, finish, reports⟩).kind ≠ .leftParen) :
    accesses (room + 1) e ⟨dot :: t :: us, finish, reports⟩ =
      accesses room (.field dot.place e name) ⟨us, finish, reports⟩ := by
  rw [accesses, peek_bind, head_cons, hdot]
  exact (bind_some (advance_cons rfl)).trans <| (bind_some (identifier_cons _ rfl ht)).trans <|
    bind_some (accept_head hparen)

theorem accesses_method {dot left : Token} {name : String} {args : List Expr}
    (hdot : dot.kind = .dot) (ht : t.kind = .ident name) (hleft : left.kind = .leftParen)
    (hargs : listUpTo .rightParen .argumentsEnd (expressionAbove room 0) ⟨us, finish, reports⟩ =
      (some args, s')) :
    accesses (room + 1) e ⟨dot :: t :: left :: us, finish, reports⟩ =
      accesses room (.method dot.place e name args) s' := by
  rw [accesses, peek_bind, head_cons, hdot]
  exact (bind_some (advance_cons rfl)).trans <| (bind_some (identifier_cons _ rfl ht)).trans <|
    (bind_some (accept_cons rfl hleft)).trans (bind_some hargs)

theorem accesses_index {left right : Token} {i : Expr} (hleft : left.kind = .leftBracket)
    (hi : expressionAbove room 0 ⟨us, finish, reports⟩ =
      (some i, ⟨right :: rest, finish, reports⟩)) (hright : right.kind = .rightBracket) :
    accesses (room + 1) e ⟨left :: us, finish, reports⟩ =
      accesses room (.index left.place e i) ⟨rest, finish, reports⟩ := by
  rw [accesses, peek_bind, head_cons, hleft]
  exact (bind_some (advance_cons rfl)).trans <| (bind_some hi).trans <|
    bind_some (expect_cons _ rfl hright)

theorem accesses_call {left : Token} {p : Position} {name : String} {args : List Expr}
    (hleft : left.kind = .leftParen)
    (hargs : listUpTo .rightParen .argumentsEnd (expressionAbove room 0) ⟨us, finish, reports⟩ =
      (some args, s')) :
    accesses (room + 1) (.ident p name) ⟨left :: us, finish, reports⟩ =
      accesses room (.call p name args) s' := by
  rw [accesses, peek_bind, head_cons, hleft]
  exact (bind_some (advance_cons rfl)).trans (bind_some hargs)

theorem primary_group {left right : Token} (hleft : left.kind = .leftParen)
    (he : expressionAbove room 0 ⟨us, finish, reports⟩ =
      (some e, ⟨right :: rest, finish, reports⟩)) (hright : right.kind = .rightParen) :
    primary (room + 1) ⟨left :: us, finish, reports⟩ = (some e, ⟨rest, finish, reports⟩) := by
  rw [primary, peek_bind, head_cons, hleft]
  exact (bind_some (advance_cons rfl)).trans <| (bind_some he).trans <|
    bind_some (expect_cons _ rfl hright)

theorem primary_list {left : Token} {items : List Expr} (hleft : left.kind = .leftBracket)
    (hitems : listUpTo .rightBracket .listEnd (expressionAbove room 0) ⟨us, finish, reports⟩ =
      (some items, s')) :
    primary (room + 1) ⟨left :: us, finish, reports⟩ = (some (.list left.place items), s') := by
  rw [primary, peek_bind, head_cons, hleft]
  exact (bind_some (advance_cons rfl)).trans (bind_some hitems)

end

/-! ## Lists -/

section

variable {α : Type} {item : Parser α} {s s' : State} {us rest : List Token} {t finish : Token}
  {reports : List Diagnostic} {a : α}

theorem separated_last (h : item s = (some a, ⟨t :: rest, finish, reports⟩))
    (ht : t.kind ≠ .comma) : separated item s = (some [a], ⟨t :: rest, finish, reports⟩) := by
  rw [separated, h]
  exact if_neg ht

theorem separated_more {as : List α} (h : item s = (some a, ⟨t :: us, finish, reports⟩))
    (ht : t.kind = .comma) (hlength : us.length < s.rest.length)
    (hmore : separated item ⟨us, finish, reports⟩ = (some as, s')) :
    separated item s = (some (a :: as), s') := by
  rw [separated, h]
  simp only
  rw [if_pos ht, if_pos hlength, hmore]

theorem listUpTo_empty {closing : TokenKind} (what : Expectation) (ht : t.kind = closing) :
    listUpTo closing what item ⟨t :: rest, finish, reports⟩ = (some [], ⟨rest, finish, reports⟩) :=
  bind_some (accept_cons rfl ht)

theorem listUpTo_items {closing : TokenKind} (what : Expectation) {as : List α}
    (hs : s.head.kind ≠ closing) (h : separated item s = (some as, ⟨t :: rest, finish, reports⟩))
    (ht : t.kind = closing) :
    listUpTo closing what item s = (some as, ⟨rest, finish, reports⟩) :=
  (bind_some (accept_head hs)).trans <| (bind_some h).trans (bind_some (expect_cons _ rfl ht))

end

/-! ## Statements -/

theorem statementsUntil_end {closing : Option TokenKind} {p : Parser Stmt} {s : State}
    (h : s.rest = [] ∨ some s.head.kind = closing) : statementsUntil closing p s = ([], s) := by
  rw [statementsUntil]
  by_cases hnil : s.rest = []
  · rw [dif_pos hnil]
  · rw [dif_neg hnil, if_pos (h.resolve_left hnil)]

theorem statementsUntil_cons {closing : Option TokenKind} {p : Parser Stmt} {s t : State}
    {stmt : Stmt} (hne : s.rest ≠ []) (hclosing : some s.head.kind ≠ closing)
    (h : p s = (some stmt, t)) (hlength : t.rest.length < s.rest.length) :
    statementsUntil closing p s =
      (stmt :: (statementsUntil closing p t).1, (statementsUntil closing p t).2) := by
  rw [statementsUntil, dif_neg hne, if_neg hclosing, h]
  simp only [onward, if_pos hlength]

section

variable {cond : Parser Expr} {body : Parser (List Stmt)} {s t u : State} {line : Nat} {c : Expr}
  {b : List Stmt}

theorem arm_cons (first : Token) {finish : Token} {us : List Token} {reports : List Diagnostic}
    {more : Bool} (hc : cond ⟨us, finish, reports⟩ = (some c, s)) (hb : body s = (some b, t))
    (hmore : accept .elseWord t = (some more, u)) :
    arm cond body ⟨first :: us, finish, reports⟩ = (some (first.place.line, c, b, more), u) :=
  (bind_some (advance_cons rfl)).trans <| (bind_some hc).trans <| (bind_some hb).trans <|
    bind_some hmore

theorem conditional_plain (h : arm cond body s = (some (line, c, b, false), t)) :
    conditional cond body s = (some (.branch line c b none), t) := by
  rw [conditional, h]

theorem conditional_branch {other : Stmt} (h : arm cond body s = (some (line, c, b, true), t))
    (hif : t.head.kind = .ifWord) (hlength : t.rest.length < s.rest.length)
    (hother : conditional cond body t = (some other, u)) :
    conditional cond body s = (some (.branch line c b (some other)), u) := by
  rw [conditional, h]
  simp only
  rw [if_pos hif, if_pos hlength, hother]

theorem conditional_block {stmts : List Stmt}
    (h : arm cond body s = (some (line, c, b, true), t)) (hif : t.head.kind ≠ .ifWord)
    (hother : body t = (some stmts, u)) :
    conditional cond body s =
      (some (.branch line c b (some (.block t.head.place.line stmts))), u) := by
  rw [conditional, h]
  simp only
  rw [if_neg hif, hother]

end

section

variable {room : Nat} {t finish : Token} {us : List Token} {s : State} {rest : List Token}
  {reports : List Diagnostic} {e : Expr} {body : List Stmt} {name : String}

theorem block_braces {left right : Token} (hleft : left.kind = .leftBrace)
    (h : statementsUntil (some .rightBrace) (statement room) ⟨us, finish, reports⟩ =
      (body, ⟨right :: rest, finish, reports⟩)) (hright : right.kind = .rightBrace) :
    block (room + 1) ⟨left :: us, finish, reports⟩ = (some body, ⟨rest, finish, reports⟩) := by
  rw [block]
  refine (bind_some (expect_cons _ rfl hleft)).trans ?_
  refine (bind_some (a := body) (t := ⟨right :: rest, finish, reports⟩) ?_).trans ?_
  · simp only [h]
  · exact bind_some (expect_cons _ rfl hright)

theorem statement_declare {equal last u : Token} (ht : t.kind = .letWord)
    (hu : u.kind = .ident name) (hequal : equal.kind = .equal)
    (he : expression room ⟨us, finish, reports⟩ = (some e, ⟨last :: rest, finish, reports⟩))
    (hlast : last.kind = .semicolon) :
    statement room ⟨t :: u :: equal :: us, finish, reports⟩ =
      (some (.declare t.place.line name e), ⟨rest, finish, reports⟩) := by
  rw [statement, peek_bind, head_cons, ht]
  exact (bind_some (advance_cons rfl)).trans <| (bind_some (identifier_cons _ rfl hu)).trans <|
    (bind_some (expect_cons _ rfl hequal)).trans <| (bind_some he).trans <|
    bind_some (expect_cons _ rfl hlast)

theorem statement_assign {equal last : Token} (ht : t.kind = .ident name)
    (hequal : equal.kind = .equal)
    (he : expression room ⟨us, finish, reports⟩ = (some e, ⟨last :: rest, finish, reports⟩))
    (hlast : last.kind = .semicolon) :
    statement room ⟨t :: equal :: us, finish, reports⟩ =
      (some (.assign t.place.line name e), ⟨rest, finish, reports⟩) := by
  have hsecond : State.second? ⟨t :: equal :: us, finish, reports⟩ = some .equal :=
    congrArg some hequal
  rw [statement, peek_bind, head_cons, ht]
  refine (bind_some rfl).trans ?_
  rw [if_pos hsecond]
  exact (bind_some (advance_cons rfl)).trans <| (bind_some (advance_cons rfl)).trans <|
    (bind_some he).trans <| bind_some (expect_cons _ rfl hlast)

theorem statement_evaluate {last : Token} (ht : t.kind.beginsExpression = true)
    (hsecond : State.second? ⟨t :: us, finish, reports⟩ ≠ some .equal)
    (he : expression room ⟨t :: us, finish, reports⟩ =
      (some e, ⟨last :: rest, finish, reports⟩)) (hlast : last.kind = .semicolon) :
    statement room ⟨t :: us, finish, reports⟩ =
      (some (.evaluate t.place.line e), ⟨rest, finish, reports⟩) := by
  have hevaluate : (expression room >>= fun e => expect .semicolon .expressionEnd >>= fun _ =>
      pure (.evaluate t.place.line e) : Parser Stmt) ⟨t :: us, finish, reports⟩ =
        (some (.evaluate t.place.line e), ⟨rest, finish, reports⟩) :=
    (bind_some he).trans (bind_some (expect_cons .expressionEnd rfl hlast))
  rw [statement, peek_bind, head_cons]
  cases hkind : t.kind with
  | ident name =>
    refine (bind_some rfl).trans ?_
    rw [if_neg hsecond]
    exact hevaluate
  | int | str | trueWord | falseWord | nullWord | leftParen | leftBracket | minus | bang =>
    exact hevaluate
  | _ =>
    rw [hkind] at ht
    cases ht

theorem statement_loop (ht : t.kind = .whileWord)
    (he : expression room ⟨us, finish, reports⟩ = (some e, s))
    (hbody : block room s = (some body, ⟨rest, finish, reports⟩)) :
    statement room ⟨t :: us, finish, reports⟩ =
      (some (.loop t.place.line e body), ⟨rest, finish, reports⟩) := by
  rw [statement, peek_bind, head_cons, ht]
  exact (bind_some (advance_cons rfl)).trans <| (bind_some he).trans (bind_some hbody)

theorem statement_each {u inWord : Token} (ht : t.kind = .forWord) (hu : u.kind = .ident name)
    (hin : inWord.kind = .inWord)
    (he : expression room ⟨us, finish, reports⟩ = (some e, s))
    (hbody : block room s = (some body, ⟨rest, finish, reports⟩)) :
    statement room ⟨t :: u :: inWord :: us, finish, reports⟩ =
      (some (.each t.place.line name e body), ⟨rest, finish, reports⟩) := by
  rw [statement, peek_bind, head_cons, ht]
  exact (bind_some (advance_cons rfl)).trans <| (bind_some (identifier_cons _ rfl hu)).trans <|
    (bind_some (expect_cons _ rfl hin)).trans <| (bind_some he).trans (bind_some hbody)

theorem statement_block (ht : t.kind = .leftBrace)
    (hbody : block room ⟨t :: us, finish, reports⟩ = (some body, ⟨rest, finish, reports⟩)) :
    statement room ⟨t :: us, finish, reports⟩ =
      (some (.block t.place.line body), ⟨rest, finish, reports⟩) := by
  rw [statement, peek_bind, head_cons, ht]
  exact bind_some hbody

theorem statement_checkpoint {u : Token} (ht : t.kind = .checkpointWord) (hu : u.kind = .str name)
    (hbody : block room ⟨us, finish, reports⟩ = (some body, ⟨rest, finish, reports⟩)) :
    statement room ⟨t :: u :: us, finish, reports⟩ =
      (some (.checkpoint t.place.line name body), ⟨rest, finish, reports⟩) := by
  rw [statement, peek_bind, head_cons, ht]
  exact (bind_some (advance_cons rfl)).trans <| (bind_some (checkpointName_cons rfl hu)).trans <|
    bind_some hbody

theorem statement_conditional (ht : t.kind = .ifWord) :
    statement room ⟨t :: us, finish, reports⟩ =
      conditional (expression room) (block room) ⟨t :: us, finish, reports⟩ := by
  rw [statement, peek_bind, head_cons, ht]

end

end Parser
end Script
end CheckScript
