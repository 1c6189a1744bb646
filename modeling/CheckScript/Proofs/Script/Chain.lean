/-
Scripts that are one long chain of conditions.

`chainText n` is a condition with `n` further conditions behind it, each behind an `else`.
It is read without a report for every `n` (`compile_chainText`), since a further condition
takes no room.
-/
import CheckScript.Proofs.Script.Height
import CheckScript.Proofs.Script.Spelling
import CheckScript.Proofs.Script.Step
import CheckScript.Script.Compile

namespace CheckScript
namespace Script

def chainText : Nat → List Char
  | 0 => "if true \x7b \x7d ".toList
  | n + 1 => "if true \x7b \x7d else ".toList ++ chainText n

def chainKinds : Nat → List TokenKind
  | 0 => [.ifWord, .trueWord, .leftBrace, .rightBrace]
  | n + 1 => [.ifWord, .trueWord, .leftBrace, .rightBrace, .elseWord] ++ chainKinds n

/-! ## The words of a chain -/

namespace Spells

theorem spaced {c : Char} {cs : List Char} {kind : TokenKind} (ds : List Char)
    (h : ∀ p, ∃ q, stretch p c cs = .word kind p q (' ' :: ds)) : Spells (c :: cs) [kind] ds :=
  (word h).trans (blank ds)

theorem condition (cs : List Char) :
    Spells ("if true \x7b \x7d ".toList ++ cs) [.ifWord, .trueWord, .leftBrace, .rightBrace] cs :=
  (spaced ("true \x7b \x7d ".toList ++ cs) fun _ => ⟨_, rfl⟩).trans <|
    (spaced ("\x7b \x7d ".toList ++ cs) fun _ => ⟨_, rfl⟩).trans <|
      (spaced ("\x7d ".toList ++ cs) fun _ => ⟨_, rfl⟩).trans (spaced cs fun _ => ⟨_, rfl⟩)

theorem otherwise (cs : List Char) : Spells ("else ".toList ++ cs) [.elseWord] cs :=
  spaced cs fun _ => ⟨_, rfl⟩

theorem chain (n : Nat) : Spells (chainText n) (chainKinds n) [] := by
  induction n with
  | zero => exact condition []
  | succ n ih => exact (condition _).trans ((otherwise _).trans ih)

end Spells

theorem tokenize_chainText (n : Nat) :
    ∃ tokens finish, tokens.map Token.kind = chainKinds n ∧ finish.kind = .finish ∧
      tokenize (String.ofList (chainText n)) = (tokens ++ [finish], []) := by
  obtain ⟨q, tokens, hkinds, htokens⟩ := Spells.chain n .start
  refine ⟨tokens, ⟨.finish, q⟩, hkinds, rfl, ?_⟩
  rw [tokenize, String.toList_ofList, htokens, tokensFrom]

namespace Parser

/-! ## The tree of a chain -/

theorem expression_true {s : State} {a b : Token} {rest : List Token} (room : Nat)
    (hs : s.rest = a :: b :: rest) (ha : a.kind = .trueWord) (hb : b.kind = .leftBrace) :
    expression room s = (some (.bool a.place true), { s with rest := b :: rest }) := by
  obtain ⟨_, finish, reports⟩ := s
  obtain rfl := hs
  have hprimary : primary room ⟨a :: b :: rest, finish, reports⟩ =
      (some (.bool a.place true), ⟨b :: rest, finish, reports⟩) := by
    rw [primary, peek_bind, head_cons, ha]
    exact bind_some (advance_cons rfl)
  have haccesses : accesses room (.bool a.place true) ⟨b :: rest, finish, reports⟩ =
      (some (.bool a.place true), ⟨b :: rest, finish, reports⟩) := by
    apply accesses_end <;> (rw [head_cons, hb]; decide)
  have hunary : unary room ⟨a :: b :: rest, finish, reports⟩ =
      (some (.bool a.place true), ⟨b :: rest, finish, reports⟩) := by
    rw [unary_plain room (by rw [head_cons, ha]; rfl)]
    exact (bind_some hprimary).trans haccesses
  have hclosed : b.kind.closesExpression = true := by rw [hb]; rfl
  exact (expressionAbove_operators 0 hunary).trans <|
    operators_end room _ (Grammar.below_of_closes hclosed 0)

theorem block_empty {s : State} {a b : Token} {rest : List Token} (room : Nat)
    (hs : s.rest = a :: b :: rest) (ha : a.kind = .leftBrace) (hb : b.kind = .rightBrace) :
    block (room + 1) s = (some [], { s with rest := rest }) := by
  obtain ⟨_, finish, reports⟩ := s
  obtain rfl := hs
  exact block_braces ha (statementsUntil_end (.inr (congrArg some hb))) hb

theorem arm_chain {s : State} {a b c d : Token} {rest : List Token} {more : Bool} {t : State}
    (room : Nat) (hs : s.rest = a :: b :: c :: d :: rest) (hb : b.kind = .trueWord)
    (hc : c.kind = .leftBrace) (hd : d.kind = .rightBrace)
    (hmore : accept .elseWord { s with rest := rest } = (some more, t)) :
    arm (expression (room + 1)) (block (room + 1)) s =
      (some (a.place.line, .bool b.place true, [], more), t) :=
  (bind_some (advance_cons hs)).trans <| (bind_some (expression_true _ rfl hb hc)).trans <|
    (bind_some (block_empty room rfl hc hd)).trans (bind_some hmore)

theorem condition_of_kinds {tokens : List Token} {kinds : List TokenKind}
    (h : tokens.map Token.kind = [.ifWord, .trueWord, .leftBrace, .rightBrace] ++ kinds) :
    ∃ a b c d rest, tokens = a :: b :: c :: d :: rest ∧ a.kind = .ifWord ∧ b.kind = .trueWord ∧
      c.kind = .leftBrace ∧ d.kind = .rightBrace ∧ rest.map Token.kind = kinds := by
  obtain ⟨a, _, rfl, ha, h⟩ := List.map_eq_cons_iff.mp h
  obtain ⟨b, _, rfl, hb, h⟩ := List.map_eq_cons_iff.mp h
  obtain ⟨c, _, rfl, hc, h⟩ := List.map_eq_cons_iff.mp h
  obtain ⟨d, rest, rfl, hd, h⟩ := List.map_eq_cons_iff.mp h
  exact ⟨a, b, c, d, rest, rfl, ha, hb, hc, hd, h⟩

theorem head_chainKinds {s : State} {n : Nat} (h : s.rest.map Token.kind = chainKinds n) :
    s.head.kind = .ifWord := by
  have hkinds : ∃ kinds, chainKinds n = .ifWord :: kinds := by
    cases n <;> exact ⟨_, rfl⟩
  obtain ⟨kinds, hkinds⟩ := hkinds
  obtain ⟨a, rest, hs, ha, -⟩ := List.map_eq_cons_iff.mp (h.trans hkinds)
  rw [State.head, hs]
  exact ha

/-- A chain leaves its room as it is. -/
theorem conditional_chain (room n : Nat) {s : State} (hs : s.rest.map Token.kind = chainKinds n)
    (hfinish : s.finish.kind = .finish) :
    ∃ stmt, conditional (expression (room + 1)) (block (room + 1)) s =
        (some stmt, { s with rest := [] }) ∧
      stmt.isBranch = true ∧ chain stmt = n ∧ ∀ names, (checkStmt names stmt).1 = [] := by
  induction n generalizing s with
  | zero =>
    obtain ⟨a, b, c, d, rest, hrest, -, hb, hc, hd, hnil⟩ := condition_of_kinds hs
    obtain rfl := List.map_eq_nil_iff.mp hnil
    have hmore : accept .elseWord { s with rest := [] } = (some false, { s with rest := [] }) :=
      accept_head (by rw [State.head, hfinish]; decide)
    refine ⟨.branch a.place.line (.bool b.place true) [] none, ?_, rfl, rfl, fun names => rfl⟩
    rw [conditional, arm_chain room hrest hb hc hd hmore]
  | succ n ih =>
    obtain ⟨a, b, c, d, _, hrest, -, hb, hc, hd, hmap⟩ := condition_of_kinds hs
    obtain ⟨e, rest, rfl, he, hchain⟩ := List.map_eq_cons_iff.mp hmap
    have hmore := accept_cons (s := { s with rest := e :: rest }) rfl he
    obtain ⟨stmt, hstmt, hbranch, hlength, hcheck⟩ :=
      ih (s := { s with rest := rest }) hchain hfinish
    refine ⟨.branch a.place.line (.bool b.place true) [] (some stmt), ?_, rfl, ?_, ?_⟩
    · rw [conditional, arm_chain room hrest hb hc hd hmore]
      simp only
      have hshorter : rest.length < s.rest.length := by
        rw [hrest]
        simp only [List.length_cons]
        omega
      rw [if_pos (head_chainKinds hchain), if_pos hshorter, hstmt]
    · simp only [chain, chainOther, hbranch, if_true, hlength]
    · intro names
      simp only [checkStmt, checkExpr, checkStmts, checkOther, hcheck, List.append_nil]

theorem statement_chain (room n : Nat) {s : State} (hs : s.rest.map Token.kind = chainKinds n)
    (hfinish : s.finish.kind = .finish) :
    ∃ stmt, statement (room + 1) s = (some stmt, { s with rest := [] }) ∧ chain stmt = n ∧
      ∀ names, (checkStmt names stmt).1 = [] := by
  obtain ⟨stmt, hstmt, -, hlength, hcheck⟩ := conditional_chain room n hs hfinish
  refine ⟨stmt, ?_, hlength, hcheck⟩
  rw [statement]
  refine (bind_some rfl).trans ?_
  rw [head_chainKinds hs]
  exact hstmt

end Parser

theorem not_finish_of_mem_chainKinds {n : Nat} {k : TokenKind} (h : k ∈ chainKinds n) :
    k ≠ .finish := by
  induction n with
  | zero =>
    rintro rfl
    simp [chainKinds] at h
  | succ n ih =>
    rcases List.mem_append.mp h with h | h
    · rintro rfl
      simp at h
    · exact ih h

/-- A chain of any length compiles. -/
theorem compile_chainText (n : Nat) :
    ∃ stmt, compile (String.ofList (chainText n)) = .ok ⟨[stmt]⟩ ∧ chain stmt = n := by
  obtain ⟨tokens, finish, hkinds, hfinish, htokens⟩ := tokenize_chainText n
  have hstart : Parser.State.ofTokens (tokens ++ [finish]) = ⟨tokens, finish, []⟩ :=
    Parser.ofTokens_append (fun t ht =>
      not_finish_of_mem_chainKinds (hkinds ▸ List.mem_map_of_mem ht)) hfinish
  obtain ⟨stmt, hstmt, hlength, hcheck⟩ := Parser.statement_chain (maxNesting - 1) n
    (s := ⟨tokens, finish, []⟩) hkinds hfinish
  rw [show maxNesting - 1 + 1 = maxNesting from rfl] at hstmt
  have hrest : tokens ≠ [] := by
    rintro rfl
    cases n <;> cases hkinds
  have hparse : parse (tokens ++ [finish]) = (⟨[stmt]⟩, []) := by
    unfold parse
    rw [hstart, Parser.statementsUntil, dif_neg hrest, if_neg (Option.some_ne_none _), hstmt]
    simp only [Parser.onward, List.length_nil, List.length_pos_iff.mpr hrest, if_true]
    rw [Parser.statementsUntil, dif_pos rfl]
  have hdiagnose : diagnose (String.ofList (chainText n)) = (⟨[stmt]⟩, []) := by
    unfold diagnose
    simp only [htokens, hparse, List.append_nil, List.isEmpty_nil, if_true]
    simp only [resolve, checkStmts, hcheck, List.append_nil, sortDiagnostics, List.mergeSort_nil]
  refine ⟨stmt, ?_, hlength⟩
  unfold compile
  rw [hdiagnose]
  rfl

end Script
end CheckScript
