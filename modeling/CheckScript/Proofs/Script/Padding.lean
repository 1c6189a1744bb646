/-
Empty lines in front of a script change nothing but its lines.

`Moves k f p q` says that `q` makes of words `k` lines further down what `p` makes of them where
they are, with values moved by `f`.  The parser looks at kinds alone and copies places, so every
rule of the grammar keeps this up (`statement_moves`).  With the words, the names and the order of
problems from `Shift` the whole of `compile` is moved down by empty lines (`compile_below`).
-/
import CheckScript.Proofs.Script.Shift
import CheckScript.Proofs.Script.Step

namespace CheckScript
namespace Script
namespace Parser

variable {k : Nat}

def State.down (k : Nat) (s : State) : State :=
  { rest := s.rest.map (Token.down k), finish := s.finish.down k,
    diagnostics := s.diagnostics.map (Diagnostic.down k) }

theorem State.head_down (s : State) : (s.down k).head = s.head.down k := by
  unfold State.head State.down
  cases s.rest <;> rfl

theorem State.down_cons {s : State} {t : Token} {rest : List Token} (h : s.rest = t :: rest) :
    (s.down k).rest = t.down k :: rest.map (Token.down k) := by
  rw [State.down, h, List.map_cons]

theorem State.down_rest (s : State) (rest : List Token) :
    State.down k { s with rest := rest } =
      { s.down k with rest := rest.map (Token.down k) } := rfl

theorem State.down_length (s t : State) :
    (t.down k).rest.length < (s.down k).rest.length ↔ t.rest.length < s.rest.length := by
  simp only [State.down, List.length_map]

def Moves (k : Nat) {α : Type} (f : α → α) (p q : Parser α) : Prop :=
  ∀ s : State, q (s.down k) = ((p s).1.map f, (p s).2.down k)

/-! ## Rules -/

namespace Moves

variable {α β : Type} {f : α → α} {g : β → β}

theorem pure (a : α) : Moves k f (pure a) (pure (f a)) := fun _ => rfl

theorem bind {p q : Parser α} {p' q' : α → Parser β} (hp : Moves k f p q)
    (hf : ∀ a, Moves k g (p' a) (q' (f a))) : Moves k g (p >>= p') (q >>= q') := by
  intro s
  rw [bind_apply, bind_apply, hp s]
  cases p s with | mk found t => ?_
  cases found with
  | none => rfl
  | some a => exact hf a t

/-- A value without places comes first. -/
theorem next {p q : Parser α} {p' q' : α → Parser β} (hp : Moves k id p q)
    (hf : ∀ a, Moves k g (p' a) (q' a)) : Moves k g (p >>= p') (q >>= q') := bind hp hf

theorem peek : Moves k (Token.down k) peek peek := fun s =>
  Prod.ext (congrArg some (State.head_down s)) rfl

theorem second : Moves k id second second := by
  intro s
  refine Prod.ext (congrArg some ?_) rfl
  unfold State.second? State.down
  rcases s.rest with - | ⟨t, - | ⟨u, rest⟩⟩ <;> rfl

theorem advance : Moves k (Token.down k) advance advance := by
  intro s
  obtain ⟨rest, finish, reports⟩ := s
  cases rest <;> rfl

theorem report (problem : TokenKind → Problem) : Moves k f (report problem) (report problem) := by
  intro s
  unfold Parser.report
  rw [State.head_down]
  simp only [State.down, List.map_append]
  rfl

theorem missing (what : Expectation) : Moves k f (missing what) (missing what) := report _

theorem expect (kind : TokenKind) (what : Expectation) :
    Moves k id (expect kind what) (expect kind what) := by
  refine bind peek fun t => ?_
  rw [Token.down_kind]
  split
  · exact bind advance fun _ => pure _
  · exact missing what

theorem accept (kind : TokenKind) : Moves k id (accept kind) (accept kind) := by
  refine bind peek fun t => ?_
  rw [Token.down_kind]
  split
  · exact bind advance fun _ => pure _
  · exact pure _

theorem identifier (what : Expectation) : Moves k id (identifier what) (identifier what) := by
  refine bind peek fun t => ?_
  rw [Token.down_kind]
  split
  · exact bind advance fun _ => pure _
  · exact missing what

theorem checkpointName : Moves k id checkpointName checkpointName := by
  refine bind peek fun t => ?_
  rw [Token.down_kind]
  split
  · exact bind advance fun _ => pure _
  · exact missing _

theorem nested {room : Nat} {p q : (r : Nat) → r < room → Parser α}
    (h : ∀ r hr, Moves k f (p r hr) (q r hr)) : Moves k f (nested room p) (nested room q) := by
  cases room with
  | zero => exact report .tooDeep
  | succ r => exact h r (Nat.lt_succ_self r)

theorem separated {p q : Parser α} (hp : Moves k f p q) :
    Moves k (List.map f) (separated p) (separated q) := by
  intro s
  fun_induction Parser.separated p s with
  | case1 s t hs => rw [Parser.separated, hp s, hs]; rfl
  | case2 s a t hs hrest =>
    have hdown : (t.down k).rest = [] := by rw [State.down, hrest, List.map_nil]
    rw [Parser.separated, hp s, hs]
    simp only [Option.map_some, hdown]
    rfl
  | case3 s a t hs comma rest hrest hcomma hlength u hmore ih
  | case4 s a t hs comma rest hrest hcomma hlength as u hmore ih =>
    have hkind : (comma.down k).kind = .comma := hcomma
    have hlong : (rest.map (Token.down k)).length < (s.down k).rest.length :=
      (State.down_length s { t with rest := rest }).mpr hlength
    rw [hmore, State.down_rest] at ih
    rw [Parser.separated, hp s, hs]
    simp only [Option.map_some, State.down_cons hrest]
    rw [if_pos hkind, if_pos hlong, ih]
    rfl
  | case5 s a t hs comma rest hrest hcomma hlength =>
    have hkind : (comma.down k).kind = .comma := hcomma
    have hlong : ¬(rest.map (Token.down k)).length < (s.down k).rest.length :=
      mt (State.down_length s { t with rest := rest }).mp hlength
    rw [Parser.separated, hp s, hs]
    simp only [Option.map_some, State.down_cons hrest]
    rw [if_pos hkind, if_neg hlong]
    rfl
  | case6 s a t hs comma rest hrest hcomma =>
    have hkind : ¬(comma.down k).kind = .comma := hcomma
    rw [Parser.separated, hp s, hs]
    simp only [Option.map_some, State.down_cons hrest]
    rw [if_neg hkind]
    rfl

theorem listUpTo (closing : TokenKind) (what : Expectation) {p q : Parser α}
    (hp : Moves k f p q) :
    Moves k (List.map f) (listUpTo closing what p) (listUpTo closing what q) := by
  refine next (accept closing) fun found => ?_
  cases found with
  | true => exact pure _
  | false => exact bind hp.separated fun _ => next (expect closing what) fun _ => pure _

def armDown (k : Nat) (a : Nat × Expr × List Stmt × Bool) : Nat × Expr × List Stmt × Bool :=
  (a.1 + k, a.2.1.down k, a.2.2.1.map (Stmt.down k), a.2.2.2)

section

variable {cond cond' : Parser Expr} {body body' : Parser (List Stmt)}

theorem arm (hcond : Moves k (Expr.down k) cond cond')
    (hbody : Moves k (List.map (Stmt.down k)) body body') :
    Moves k (armDown k) (arm cond body) (arm cond' body') := by
  refine bind advance fun t => bind hcond fun c => bind hbody fun b => ?_
  refine next (accept _) fun more => ?_
  exact pure (t.place.line, c, b, more)

theorem conditional (hcond : Moves k (Expr.down k) cond cond')
    (hbody : Moves k (List.map (Stmt.down k)) body body') :
    Moves k (Stmt.down k) (conditional cond body) (conditional cond' body') := by
  have harm := hcond.arm hbody
  intro s
  fun_induction Parser.conditional cond body s with
  | case1 s t hs => rw [Parser.conditional, harm s, hs]; rfl
  | case2 s line c b t hs =>
    rw [Parser.conditional, harm s, hs]
    simp only [Option.map_some, Stmt.down, stmtsDown_eq]
    rfl
  | case3 s line c b t hs hif hlength u hother ih
  | case4 s line c b t hs hif hlength other u hother ih =>
    have hkind : (t.down k).head.kind = .ifWord := by rwa [State.head_down, Token.down_kind]
    have hlong := (State.down_length (k := k) s t).mpr hlength
    rw [hother] at ih
    rw [Parser.conditional, harm s, hs]
    simp only [Option.map_some, armDown]
    rw [if_pos hkind, if_pos hlong, ih]
    simp only [Option.map_some, Stmt.down, stmtsDown_eq]
    rfl
  | case5 s line c b t hs hif hlength =>
    have hkind : (t.down k).head.kind = .ifWord := by rwa [State.head_down, Token.down_kind]
    have hlong := mt (State.down_length (k := k) s t).mp hlength
    rw [Parser.conditional, harm s, hs]
    simp only [Option.map_some, armDown]
    rw [if_pos hkind, if_neg hlong]
    rfl
  | case6 s line c b t hs hif u hother | case7 s line c b t hs hif stmts u hother =>
    have hkind : ¬(t.down k).head.kind = .ifWord := by rwa [State.head_down, Token.down_kind]
    have hbody' := hbody t
    rw [hother] at hbody'
    rw [Parser.conditional, harm s, hs]
    simp only [Option.map_some, armDown]
    rw [if_neg hkind, hbody']
    simp only [Option.map_some, Stmt.down, otherDown, stmtsDown_eq, State.head_down]
    rfl

end

end Moves

/-! ## Loops over statements -/

theorem skipStatement_down (ts : List Token) :
    skipStatement (ts.map (Token.down k)) = (skipStatement ts).map (Token.down k) := by
  induction ts with
  | nil => rfl
  | cons t ts ih =>
    rw [List.map_cons]
    unfold skipStatement
    rw [Token.down_kind]
    split
    · rfl
    iterate 6 rfl
    · exact ih

theorem recover_down (s : State) : recover (s.down k) = (recover s).down k :=
  congrArg (fun rest => { s.down k with rest := rest }) (skipStatement_down s.rest)

theorem onward_down (s t : State) : onward (s.down k) (t.down k) = (onward s t).down k := by
  unfold onward
  by_cases hlength : t.rest.length < s.rest.length
  · rw [if_pos hlength, if_pos ((State.down_length s t).mpr hlength)]
  · rw [if_neg hlength, if_neg (mt (State.down_length s t).mp hlength)]
    unfold State.down
    rw [List.map_drop]

theorem statementsUntil_down (closing : Option TokenKind) {p q : Parser Stmt}
    (hp : Moves k (Stmt.down k) p q) (s : State) :
    statementsUntil closing q (s.down k) =
      ((statementsUntil closing p s).1.map (Stmt.down k),
        (statementsUntil closing p s).2.down k) := by
  have hne : ∀ {s : State}, s.rest ≠ [] → (s.down k).rest ≠ [] := fun h =>
    mt List.map_eq_nil_iff.mp h
  have hhead : ∀ {s : State}, ¬some s.head.kind = closing → ¬some (s.down k).head.kind = closing :=
    fun h => by rwa [State.head_down, Token.down_kind]
  fun_induction statementsUntil closing p s with
  | case1 s hs =>
    exact statementsUntil_end (.inl (by rw [State.down, hs, List.map_nil]))
  | case2 s hs hclosing =>
    exact statementsUntil_end (.inr (by rw [State.head_down, Token.down_kind, hclosing]))
  | case3 s hs hclosing stmt t hst _ r ih =>
    rw [statementsUntil, dif_neg (hne hs), if_neg (hhead hclosing), hp s, hst]
    simp only [Option.map_some, onward_down, ih]
    rfl
  | case4 s hs hclosing t hst _ ih =>
    rw [statementsUntil, dif_neg (hne hs), if_neg (hhead hclosing), hp s, hst]
    simp only [Option.map_none, recover_down, onward_down, ih]

/-! ## The grammar -/

mutual

theorem expressionAbove_moves (room min : Nat) :
    Moves k (Expr.down k) (expressionAbove room min) (expressionAbove room min) := by
  rw [expressionAbove]
  exact .bind (unary_moves room) fun left => operators_moves room min left
termination_by 4 * room + 3
decreasing_by all_goals omega

theorem operators_moves (room min : Nat) (left : Expr) :
    Moves k (Expr.down k) (operators room min left) (operators room min (left.down k)) := by
  rw [operators, operators]
  refine .bind .peek fun t => ?_
  rw [Token.down_kind]
  split
  · exact .pure left
  · split
    · exact .pure left
    · refine .nested fun r hr => .bind .advance fun _ => ?_
      exact .bind (expressionAbove_moves r _) fun right =>
        operators_moves r min (.binary t.place _ left right)
termination_by 4 * room
decreasing_by all_goals omega

theorem unary_moves (room : Nat) : Moves k (Expr.down k) (unary room) (unary room) := by
  rw [unary]
  refine .bind .peek fun t => ?_
  rw [Token.down_kind]
  split
  · exact .nested fun r hr => .bind .advance fun _ => .bind (unary_moves r) fun e =>
      .pure (Expr.unary t.place _ e)
  · exact .bind (primary_moves room) fun e => accesses_moves room e
termination_by 4 * room + 2
decreasing_by all_goals omega

theorem accesses_moves (room : Nat) (e : Expr) :
    Moves k (Expr.down k) (accesses room e) (accesses room (e.down k)) := by
  rw [accesses, accesses]
  refine .bind .peek fun t => ?_
  rw [Token.down_kind]
  cases t.kind with
  | dot =>
    refine .nested fun r hr => .bind .advance fun _ => .next (.identifier _) fun name => ?_
    refine .next (.accept _) fun found => ?_
    cases found with
    | true =>
      refine .bind (.listUpTo _ _ (expressionAbove_moves r 0)) fun args => ?_
      rw [← exprsDown_eq]
      exact accesses_moves r (.method t.place e name args)
    | false => exact accesses_moves r (.field t.place e name)
  | leftBracket =>
    refine .nested fun r hr => .bind .advance fun _ => .bind (expressionAbove_moves r 0) fun i => ?_
    exact .next (.expect _ _) fun _ => accesses_moves r (.index t.place e i)
  | leftParen =>
    refine .nested fun r hr => ?_
    cases e with
    | ident p name =>
      refine .bind .advance fun _ => ?_
      refine .bind (.listUpTo _ _ (expressionAbove_moves r 0)) fun args => ?_
      rw [← exprsDown_eq]
      exact accesses_moves r (.call p name args)
    | _ => exact .report _
  | _ => exact .pure e
termination_by 4 * room
decreasing_by all_goals omega

theorem primary_moves (room : Nat) : Moves k (Expr.down k) (primary room) (primary room) := by
  rw [primary]
  refine .bind .peek fun t => ?_
  rw [Token.down_kind]
  cases t.kind with
  | int n => exact .bind .advance fun _ => .pure (Expr.int t.place n)
  | str s => exact .bind .advance fun _ => .pure (Expr.str t.place s)
  | trueWord => exact .bind .advance fun _ => .pure (Expr.bool t.place true)
  | falseWord => exact .bind .advance fun _ => .pure (Expr.bool t.place false)
  | nullWord => exact .bind .advance fun _ => .pure (Expr.null t.place)
  | ident name => exact .bind .advance fun _ => .pure (Expr.ident t.place name)
  | leftParen =>
    exact .nested fun r hr => .bind .advance fun _ => .bind (expressionAbove_moves r 0) fun e =>
      .next (.expect _ _) fun _ => .pure e
  | leftBracket =>
    refine .nested fun r hr => .bind .advance fun _ => ?_
    refine .bind (.listUpTo _ _ (expressionAbove_moves r 0)) fun items => ?_
    rw [← exprsDown_eq]
    exact .pure (Expr.list t.place items)
  | _ => exact .missing _
termination_by 4 * room + 1
decreasing_by all_goals omega

end

theorem expression_moves (room : Nat) :
    Moves k (Expr.down k) (expression room) (expression room) := expressionAbove_moves room 0

/-- An expression with a semicolon behind it. -/
theorem valued_moves (room : Nat) (what : Expectation) {make make' : Expr → Stmt}
    (hmake : ∀ e, make' (e.down k) = (make e).down k) :
    Moves k (Stmt.down k)
      (do
        let e ← expression room
        expect .semicolon what
        return make e)
      (do
        let e ← expression room
        expect .semicolon what
        return make' e) := by
  refine .bind (expression_moves room) fun e => .next (.expect _ _) fun _ => ?_
  rw [hmake]
  exact .pure (make e)

mutual

theorem statement_moves (room : Nat) : Moves k (Stmt.down k) (statement room) (statement room) := by
  rw [statement]
  refine .bind .peek fun t => ?_
  rw [Token.down_kind]
  cases t.kind with
  | letWord =>
    exact .bind .advance fun _ => .next (.identifier _) fun name => .next (.expect _ _) fun _ =>
      valued_moves room _ fun _ => rfl
  | ifWord => exact .conditional (expression_moves room) (block_moves room)
  | whileWord =>
    refine .bind .advance fun _ => .bind (expression_moves room) fun cond => ?_
    refine .bind (block_moves room) fun body => ?_
    rw [← stmtsDown_eq]
    exact .pure (Stmt.loop t.place.line cond body)
  | forWord =>
    refine .bind .advance fun _ => .next (.identifier _) fun name => .next (.expect _ _) fun _ => ?_
    refine .bind (expression_moves room) fun items => .bind (block_moves room) fun body => ?_
    rw [← stmtsDown_eq]
    exact .pure (Stmt.each t.place.line name items body)
  | checkpointWord =>
    refine .bind .advance fun _ => .next .checkpointName fun name => ?_
    refine .bind (block_moves room) fun body => ?_
    rw [← stmtsDown_eq]
    exact .pure (Stmt.checkpoint t.place.line name body)
  | leftBrace =>
    refine .bind (block_moves room) fun body => ?_
    rw [← stmtsDown_eq]
    exact .pure (Stmt.block t.place.line body)
  | ident name =>
    refine .next .second fun kind => ?_
    split
    · exact .bind .advance fun _ => .bind .advance fun _ => valued_moves room _ fun _ => rfl
    · exact valued_moves room _ fun _ => rfl
  | _ => exact valued_moves room _ fun _ => rfl
termination_by 2 * room + 1
decreasing_by all_goals omega

theorem block_moves (room : Nat) :
    Moves k (List.map (Stmt.down k)) (block room) (block room) := by
  rw [block]
  refine .next (.expect _ _) fun _ => .nested fun r hr => ?_
  refine .bind (f := List.map (Stmt.down k)) (fun s => ?_) fun stmts =>
    .next (.expect _ _) fun _ => .pure stmts
  simp only [statementsUntil_down _ (statement_moves r), Option.map_some]
termination_by 2 * room
decreasing_by all_goals omega

end

end Parser

/-! ## Whole scripts -/

section

variable {k : Nat}

theorem parse_down {words : List Token} {finish : Token} (hwords : ∀ t ∈ words, t.kind ≠ .finish)
    (hfinish : finish.kind = .finish) :
    parse ((words ++ [finish]).map (Token.down k)) =
      ((parse (words ++ [finish])).1.down k,
        (parse (words ++ [finish])).2.map (Diagnostic.down k)) := by
  have hdown : ∀ t ∈ words.map (Token.down k), t.kind ≠ .finish := by
    intro t ht
    obtain ⟨u, hu, rfl⟩ := List.mem_map.mp ht
    exact hwords u hu
  have hstart : Parser.State.ofTokens ((words ++ [finish]).map (Token.down k)) =
      (Parser.State.ofTokens (words ++ [finish])).down k := by
    have hmark : (finish.down k).kind = .finish := hfinish
    rw [List.map_append, List.map_singleton, Parser.ofTokens_append hdown hmark,
      Parser.ofTokens_append hwords hfinish]
    rfl
  unfold parse
  rw [hstart]
  simp only [Parser.statementsUntil_down none (Parser.statement_moves maxNesting), Program.down,
    stmtsDown_eq]
  rfl

/-- A script with `k` empty lines in front of it. -/
def below (k : Nat) (text : String) : String := String.ofList (List.replicate k '\n') ++ text

theorem tokensFrom_replicate (p : Position) (k : Nat) (cs : List Char) :
    tokensFrom p (List.replicate (k + 1) '\n' ++ cs) = tokensFrom ⟨p.line + (k + 1), 1⟩ cs := by
  induction k generalizing p with
  | zero => exact tokensFrom_newline p cs
  | succ k ih =>
    rw [List.replicate_succ, List.cons_append, tokensFrom_newline, ih]
    simp only [Nat.add_assoc, Nat.add_comm 1]

theorem tokenize_below (k : Nat) (text : String) :
    tokenize (below k text) =
      ((tokenize text).1.map (Token.down k), (tokenize text).2.map (Diagnostic.down k)) := by
  have hlines : tokensFrom .start (List.replicate k '\n' ++ text.toList) =
      tokensFrom (Position.start.down k) text.toList := by
    cases k with
    | zero => rfl
    | succ k => exact tokensFrom_replicate .start k text.toList
  unfold tokenize below
  rw [String.toList_append, String.toList_ofList, hlines, tokensFrom_down]

theorem diagnose_below (k : Nat) (text : String) :
    diagnose (below k text) =
      ((diagnose text).1.down k, (diagnose text).2.map (Diagnostic.down k)) := by
  obtain ⟨words, hwords, hkinds⟩ := tokensFrom_finish .start text.toList
  have hparse : parse ((tokenize text).1.map (Token.down k)) =
      ((parse (tokenize text).1).1.down k,
        (parse (tokenize text).1).2.map (Diagnostic.down k)) := by
    rw [tokenize, hwords]
    exact parse_down hkinds rfl
  unfold diagnose
  rw [tokenize_below]
  simp only [hparse, ← List.map_append, List.isEmpty_map, resolve_down, sortDiagnostics_down]
  split <;> rfl

/-- Empty lines in front of a script move its words, its tree and what is wrong with it down by
as many lines.  Columns, problems and their order stay. -/
theorem compile_below (k : Nat) (text : String) :
    tokenize (below k text) =
        ((tokenize text).1.map (Token.down k), (tokenize text).2.map (Diagnostic.down k)) ∧
      compile (below k text) = match compile text with
        | .ok p => .ok (p.down k)
        | .error ds => .error (ds.map (Diagnostic.down k)) := by
  refine ⟨tokenize_below k text, ?_⟩
  unfold compile
  rw [diagnose_below]
  simp only [List.isEmpty_map]
  split <;> rfl

end

end Script
end CheckScript
