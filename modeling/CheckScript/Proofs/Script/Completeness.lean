/-
What the grammar derives is read without a report, given enough room.

By induction on the derivations.  A chain of operators or of accesses bends to the left while
the parser takes its links from left to right; so a derivation of such a chain leads the
parser from the first word of the chain to the place behind it, with the tree so far in hand
and `links` levels of its room spent.  That there is enough room is kept apart: with less of
it the parser takes the same course or reports that the script is too deep.
-/
import CheckScript.Proofs.Script.Room
import CheckScript.Proofs.Script.Soundness

namespace CheckScript
namespace Script

/-- From some number of levels on. -/
def Enough (P : Nat → Prop) : Prop := ∃ n, ∀ room, n ≤ room → P room

namespace Enough

variable {P Q : Nat → Prop}

theorem always (h : ∀ room, P room) : Enough P := ⟨0, fun room _ => h room⟩

theorem and (hp : Enough P) (hq : Enough Q) : Enough fun room => P room ∧ Q room := by
  obtain ⟨n, hn⟩ := hp
  obtain ⟨m, hm⟩ := hq
  exact ⟨n + m, fun room hroom => ⟨hn room (by omega), hm room (by omega)⟩⟩

theorem imp (hp : Enough P) (h : ∀ room, P room → Q room) : Enough Q := by
  obtain ⟨n, hn⟩ := hp
  exact ⟨n, fun room hroom => h room (hn room hroom)⟩

theorem succ (h : Enough P) : Enough fun room => P (room + 1) := by
  obtain ⟨n, hn⟩ := h
  exact ⟨n, fun room hroom => hn (room + 1) (by omega)⟩

/-- What holds `c` levels further holds from there on. -/
theorem of_add {c : Nat} (hp : Enough P) (h : ∀ room, P room → Q (room + c)) : Enough Q := by
  obtain ⟨n, hn⟩ := hp
  refine ⟨n + c, fun room hroom => ?_⟩
  have hq := h (room - c) (hn (room - c) (by omega))
  rwa [Nat.sub_add_cancel (by omega)] at hq

end Enough

namespace Grammar

open CheckScript.Script.Parser

/-- A word that continues nothing as an access or a call. -/
structure Plain (k : TokenKind) : Prop where
  dot : k ≠ .dot
  bracket : k ≠ .leftBracket
  paren : k ≠ .leftParen

theorem plain_word (op : BinaryOp) : Plain op.word := by
  constructor <;> cases op <;> exact nofun

theorem plain_of_closes {kind : TokenKind} (h : kind.closesExpression = true) : Plain kind := by
  constructor <;> (rintro rfl; cases h)

section

variable (finish : Token) (reports : List Diagnostic)

/-! ## Expressions -/

/-- The parser comes behind the tokens with `e` in hand and `room` levels left. -/
def Leads (k : Nat) (ts : List Token) (e : Expr) (links room : Nat) : Prop :=
  ∀ min next rest, min < k → Plain next.kind → Below k next.kind →
    expressionAbove (room + links) min ⟨ts ++ next :: rest, finish, reports⟩ =
      operators room min e ⟨next :: rest, finish, reports⟩

/-- The expression is read to its end. -/
def Above (k : Nat) (ts : List Token) (e : Expr) (room : Nat) : Prop :=
  ∀ min next rest, min < k → Plain next.kind → Below min next.kind →
    expressionAbove room min ⟨ts ++ next :: rest, finish, reports⟩ =
      (some e, ⟨next :: rest, finish, reports⟩)

variable {finish : Token} {reports : List Diagnostic}

theorem Leads.above {k : Nat} {ts : List Token} {e : Expr} {links room : Nat}
    (h : Leads finish reports k ts e links room) :
    Above finish reports k ts e (room + links) := by
  intro min next rest hmin hplain hbelow
  have hk : Below k next.kind := fun op hop => Nat.le_trans (hbelow op hop) (Nat.le_of_lt hmin)
  rw [h min next rest hmin hplain hk]
  exact operators_end room e hbelow

theorem above_of_leads {k : Nat} {ts : List Token} {e : Expr} {links : Nat}
    (h : Enough (Leads finish reports k ts e links)) : Enough (Above finish reports k ts e) :=
  h.of_add fun _ => Leads.above

theorem Above.closed {k : Nat} {ts : List Token} {e : Expr} {room : Nat}
    (h : Above finish reports (k + 1) ts e room) (next : Token) (rest : List Token)
    (hnext : next.kind.closesExpression = true) :
    expressionAbove room 0 ⟨ts ++ next :: rest, finish, reports⟩ =
      (some e, ⟨next :: rest, finish, reports⟩) :=
  h 0 next rest (Nat.succ_pos k) (plain_of_closes hnext) (below_of_closes hnext 0)

mutual

theorem Expression.leads {k : Nat} {ts : List Token} {e : Expr} (h : Expression k ts e) :
    ∃ links, Enough (Leads finish reports k ts e links) := by
  match h with
  | .operand h =>
    refine ⟨0, h.reads.imp fun room hread min next rest _ hplain _ => ?_⟩
    exact expressionAbove_operators min (hread next rest hplain)
  | @Expression.binary _ ls rs t op l r ht hlevel hl hr =>
    obtain ⟨links, hleft⟩ := hl.leads
    obtain ⟨links', hright⟩ := hr.leads
    refine ⟨1 + links, (hleft.succ.and (above_of_leads hright)).imp ?_⟩
    rintro room ⟨hleft, hright⟩ min next rest hmin hplain hbelow
    -- the operator is the word behind the left part, and takes one more level of the room
    have hcourse := hleft min t (rs ++ next :: rest) (by omega) (ht ▸ plain_word op)
      (ht ▸ below_word op)
    have hopen : Below op.level next.kind := fun op' h => Nat.le_trans (hbelow op' h) hlevel
    have hr := hright op.level next rest (Nat.lt_succ_self _) hplain hopen
    rw [List.append_assoc, List.cons_append, ← Nat.add_assoc, hcourse]
    exact operators_binary ht (by omega) hr

theorem Operand.reads {ts : List Token} {e : Expr} (h : Operand ts e) :
    Enough fun room => ∀ next rest, Plain next.kind →
      unary room ⟨ts ++ next :: rest, finish, reports⟩ =
        (some e, ⟨next :: rest, finish, reports⟩) := by
  match h with
  | .plain h =>
    obtain ⟨links, hleads⟩ := h.leads
    refine hleads.of_add (c := links) fun room hcourse next rest hplain => ?_
    obtain ⟨t, us, rfl, ht⟩ := h.begins
    rw [unary_plain, hcourse next rest fun h => absurd h hplain.paren]
    · exact accesses_end room e hplain.dot hplain.bracket hplain.paren
    · exact TokenKind.ofToken_of_beginsPrimary ht
  | .signed ht h =>
    refine h.reads.of_add (c := 1) fun room hread next rest hplain => ?_
    exact unary_signed ht (hread next rest hplain)

theorem Accessed.leads {ts : List Token} {e : Expr} (h : Accessed ts e) :
    ∃ links, Enough fun room => ∀ next rest,
      (next.kind = .leftParen → ∃ p name, e = .ident p name) →
        (primary (room + links) >>= accesses (room + links)) ⟨ts ++ next :: rest, finish, reports⟩ =
          accesses room e ⟨next :: rest, finish, reports⟩ := by
  match h with
  | .plain h => exact ⟨0, h.reads.imp fun room hread next rest _ => bind_some (hread _)⟩
  | @Accessed.field ts dot t e name h hdot ht =>
    obtain ⟨links, hleads⟩ := h.leads
    refine ⟨1 + links, hleads.succ.imp fun room hcourse next rest hparen => ?_⟩
    have hcourse := hcourse dot (t :: next :: rest) (by rw [hdot]; exact nofun)
    rw [List.append_assoc, ← Nat.add_assoc]
    refine hcourse.trans (accesses_field hdot ht fun h => ?_)
    obtain ⟨_, _, hident⟩ := hparen h
    cases hident
  | @Accessed.method ts us dot t left right e name args h hdot ht hleft hargs hright =>
    obtain ⟨links, hleads⟩ := h.leads
    refine ⟨1 + links, (hleads.succ.and hargs.reads).imp ?_⟩
    rintro room ⟨hcourse, hargs⟩ next rest _
    have hcourse := hcourse dot (t :: left :: (us ++ right :: next :: rest))
      (by rw [hdot]; exact nofun)
    have hargs := hargs .rightParen .argumentsEnd right (next :: rest) (.inl rfl) hright
    rw [← Nat.add_assoc]
    simp only [List.append_assoc, List.cons_append, List.nil_append]
    exact hcourse.trans (accesses_method hdot ht hleft hargs)
  | @Accessed.index ts us left right e i h hleft hi hright =>
    obtain ⟨links, hleads⟩ := h.leads
    obtain ⟨links', hi⟩ := hi.leads
    refine ⟨1 + links, (hleads.succ.and (above_of_leads hi)).imp ?_⟩
    rintro room ⟨hcourse, hi⟩ next rest _
    have hcourse := hcourse left (us ++ right :: next :: rest) (by rw [hleft]; exact nofun)
    have hi := hi.closed right (next :: rest) (by rw [hright]; rfl)
    rw [← Nat.add_assoc]
    simp only [List.append_assoc, List.cons_append, List.nil_append]
    exact hcourse.trans (accesses_index hleft hi hright)
  | @Accessed.call ts us left right p name args h hleft hargs hright =>
    obtain ⟨links, hleads⟩ := h.leads
    refine ⟨1 + links, (hleads.succ.and hargs.reads).imp ?_⟩
    rintro room ⟨hcourse, hargs⟩ next rest _
    have hcourse := hcourse left (us ++ right :: next :: rest) fun _ => ⟨p, name, rfl⟩
    have hargs := hargs .rightParen .argumentsEnd right (next :: rest) (.inl rfl) hright
    rw [← Nat.add_assoc]
    simp only [List.append_assoc, List.cons_append, List.nil_append]
    exact hcourse.trans (accesses_call hleft hargs)

theorem Primary.reads {ts : List Token} {e : Expr} (h : Primary ts e) :
    Enough fun room => ∀ rest,
      primary room ⟨ts ++ rest, finish, reports⟩ = (some e, ⟨rest, finish, reports⟩) := by
  match h with
  | .int ht | .str ht | .yes ht | .no ht | .null ht | .ident ht =>
    refine .always fun room rest => ?_
    rw [primary, peek_bind, List.cons_append, head_cons, ht]
    exact bind_some (advance_cons rfl)
  | @Primary.group ts left right e hleft h hright =>
    obtain ⟨links, hleads⟩ := h.leads
    refine (above_of_leads hleads).of_add (c := 1) fun room habove rest => ?_
    have he := habove.closed right rest (by rw [hright]; rfl)
    rw [List.cons_append, List.append_assoc]
    exact primary_group hleft he hright
  | @Primary.list ts left right es hleft h hright =>
    refine h.reads.of_add (c := 1) fun room hread rest => ?_
    have hes := hread .rightBracket .listEnd right rest (.inr rfl) hright
    rw [List.cons_append, List.append_assoc]
    exact primary_list hleft hes

theorem Items.reads {ts : List Token} {es : List Expr} (h : Items ts es) :
    Enough fun room => ∀ closing what last rest,
      closing = .rightParen ∨ closing = .rightBracket → last.kind = closing →
        listUpTo closing what (expressionAbove room 0) ⟨ts ++ last :: rest, finish, reports⟩ =
          (some es, ⟨rest, finish, reports⟩) := by
  match h with
  | .none => exact .always fun room closing what last rest _ hlast => listUpTo_empty what hlast
  | .some h =>
    refine h.reads.imp fun room hread closing what last rest hclosing hlast => ?_
    obtain ⟨t, us, rfl, ht⟩ := h.begins
    refine listUpTo_items what ?_ (hread last rest ?_ ?_) hlast
    · intro hkind
      rw [List.cons_append, head_cons] at hkind
      rw [hkind] at ht
      rcases hclosing with rfl | rfl <;> cases ht
    · rw [hlast]
      rcases hclosing with rfl | rfl <;> rfl
    · rw [hlast]
      rcases hclosing with rfl | rfl <;> exact nofun

theorem Several.reads {ts : List Token} {es : List Expr} (h : Several ts es) :
    Enough fun room => ∀ next rest, next.kind.closesExpression = true → next.kind ≠ .comma →
      separated (expressionAbove room 0) ⟨ts ++ next :: rest, finish, reports⟩ =
        (some es, ⟨next :: rest, finish, reports⟩) := by
  match h with
  | .one h =>
    obtain ⟨links, hleads⟩ := h.leads
    refine (above_of_leads hleads).imp fun room habove next rest hnext hcomma => ?_
    exact separated_last (habove.closed next rest hnext) hcomma
  | @Several.more ts us comma e es h hcomma hs =>
    obtain ⟨links, hleads⟩ := h.leads
    refine ((above_of_leads hleads).and hs.reads).imp ?_
    rintro room ⟨habove, hread⟩ next rest hnext hnot
    have he := habove.closed comma (us ++ next :: rest) (by rw [hcomma]; rfl)
    rw [List.append_assoc, List.cons_append]
    refine separated_more he hcomma ?_ (hread next rest hnext hnot)
    simp only [List.length_append, List.length_cons]
    omega

end

/-! ## Statements -/

variable (finish reports) in
theorem Expression.reads {ts : List Token} {e : Expr} (h : Expression 1 ts e) :
    Enough fun room => ∀ next rest, next.kind.closesExpression = true →
      expression room ⟨ts ++ next :: rest, finish, reports⟩ =
        (some e, ⟨next :: rest, finish, reports⟩) := by
  obtain ⟨links, hleads⟩ := h.leads
  exact (above_of_leads hleads).imp fun room habove => habove.closed

variable (finish reports) in
/-- In front of a block. -/
theorem Expression.reads_block {ts us : List Token} {e : Expr} {body : List Stmt}
    (h : Expression 1 ts e) (hbody : Block us body) :
    Enough fun room => ∀ rest, expression room ⟨ts ++ us ++ rest, finish, reports⟩ =
      (some e, ⟨us ++ rest, finish, reports⟩) := by
  refine (h.reads finish reports).imp fun room hread rest => ?_
  obtain ⟨left, us, rfl, hleft⟩ := hbody.begins
  rw [List.append_assoc]
  exact hread left (us ++ rest) (by rw [hleft]; rfl)

/-- No derivation of statements takes a further word `else` in front. -/
theorem Statements.head_ne_else {ts rest : List Token} {ss : List Stmt} (h : Statements ts ss)
    (hrest : (State.head ⟨rest, finish, reports⟩).kind ≠ .elseWord) :
    (State.head ⟨ts ++ rest, finish, reports⟩).kind ≠ .elseWord := by
  cases h with
  | nil => exact hrest
  | cons h _ =>
    obtain ⟨t, us, rfl, ht⟩ := h.begins
    intro hkind
    change t.kind = .elseWord at hkind
    rw [hkind] at ht
    cases ht

mutual

theorem Statement.reads {ts : List Token} {s : Stmt} (h : Statement ts s) :
    Enough fun room => ∀ rest, (State.head ⟨rest, finish, reports⟩).kind ≠ .elseWord →
      statement room ⟨ts ++ rest, finish, reports⟩ = (some s, ⟨rest, finish, reports⟩) := by
  match h with
  | @Statement.declare ts _ _ _ last _ _ hfirst ht hequal h hlast =>
    refine (h.reads finish reports).imp fun room hread rest _ => ?_
    have he := hread last rest (by rw [hlast]; rfl)
    simp only [List.cons_append, List.append_assoc]
    exact statement_declare hfirst ht hequal he hlast
  | @Statement.assign ts _ _ last _ _ ht hequal h hlast =>
    refine (h.reads finish reports).imp fun room hread rest _ => ?_
    have he := hread last rest (by rw [hlast]; rfl)
    simp only [List.cons_append, List.append_assoc]
    exact statement_assign ht hequal he hlast
  | @Statement.evaluate ts t last _ h hlast =>
    refine (h.reads finish reports).imp fun room hread rest _ => ?_
    have he := hread last rest (by rw [hlast]; rfl)
    obtain ⟨u, us, hts, ht⟩ := h.begins
    cases hts
    simp only [List.cons_append, List.append_assoc]
    -- a name with an equals sign behind it would be read as an assignment
    refine statement_evaluate ht (fun hsecond => ?_) he hlast
    cases ts with
    | nil =>
      obtain hlast' : last.kind = .equal := Option.some.inj hsecond
      rw [hlast] at hlast'
      cases hlast'
    | cons v ts =>
      obtain hv : v.kind = .equal := Option.some.inj hsecond
      have hinside := h.inside v (by simp)
      rw [hv] at hinside
      cases hinside
  | .branch h =>
    refine h.reads.imp fun room hread rest helse => ?_
    obtain ⟨u, us, rfl, ht⟩ := h.begins
    exact (statement_conditional ht).trans (hread rest helse)
  | @Statement.loop ts us first _ _ hfirst h hbody =>
    refine ((h.reads_block finish reports hbody).and hbody.reads).imp ?_
    rintro room ⟨hcond, hread⟩ rest _
    exact statement_loop hfirst (hcond rest) (hread rest)
  | .each hfirst ht hin h hbody =>
    refine ((h.reads_block finish reports hbody).and hbody.reads).imp ?_
    rintro room ⟨hitems, hread⟩ rest _
    exact statement_each hfirst ht hin (hitems rest) (hread rest)
  | .block h =>
    refine h.reads.imp fun room hread rest _ => ?_
    obtain ⟨u, us, hts, ht⟩ := h.begins
    cases hts
    exact statement_block ht (hread rest)
  | .checkpoint hfirst ht hbody =>
    exact hbody.reads.imp fun room hread rest _ => statement_checkpoint hfirst ht (hread rest)

theorem Conditional.reads {ts : List Token} {s : Stmt} (h : Conditional ts s) :
    Enough fun room => ∀ rest, (State.head ⟨rest, finish, reports⟩).kind ≠ .elseWord →
      conditional (expression room) (block room) ⟨ts ++ rest, finish, reports⟩ =
        (some s, ⟨rest, finish, reports⟩) := by
  match h with
  | .plain hfirst h hbody =>
    refine ((h.reads_block finish reports hbody).and hbody.reads).imp ?_
    rintro room ⟨hcond, hread⟩ rest helse
    exact conditional_plain (arm_cons _ (hcond rest) (hread rest) (accept_head helse))
  | @Conditional.otherwise ts us vs first elseWord cond body other hfirst h hbody helse hother =>
    refine (((h.reads_block finish reports hbody).and hbody.reads).and hother.reads).imp ?_
    rintro room ⟨⟨hcond, hread⟩, hother⟩ rest hnot
    have hcond := hcond (elseWord :: (vs ++ rest))
    have harm := arm_cons first hcond (hread _) (accept_cons rfl helse)
    simp only [List.cons_append, List.append_assoc] at harm ⊢
    refine hother rest hnot harm ?_
    simp only [List.length_append, List.length_cons]
    omega

theorem Other.reads {ts : List Token} {other : Stmt} (h : Other ts other) :
    Enough fun room => ∀ {s : State} {line : Nat} {cond : Expr} {body : List Stmt} rest,
      (State.head ⟨rest, finish, reports⟩).kind ≠ .elseWord →
      arm (expression room) (block room) s =
        (some (line, cond, body, true), ⟨ts ++ rest, finish, reports⟩) →
      (ts ++ rest).length < s.rest.length →
        conditional (expression room) (block room) s =
          (some (.branch line cond body (some other)), ⟨rest, finish, reports⟩) := by
  match h with
  | .block h =>
    refine h.reads.imp fun room hread s line cond body rest helse harm _ => ?_
    obtain ⟨u, us, hts, ht⟩ := h.begins
    cases hts
    exact conditional_block harm (by rw [List.cons_append, head_cons, ht]; exact nofun) (hread rest)
  | .branch h =>
    refine h.reads.imp fun room hread s line cond body rest helse harm hlength => ?_
    obtain ⟨u, us, rfl, ht⟩ := h.begins
    exact conditional_branch harm ht hlength (hread rest helse)

theorem Block.reads {ts : List Token} {body : List Stmt} (h : Block ts body) :
    Enough fun room => ∀ rest,
      block room ⟨ts ++ rest, finish, reports⟩ = (some body, ⟨rest, finish, reports⟩) := by
  match h with
  | @Block.braces ts left right body hleft h hright =>
    refine h.reads.of_add (c := 1) fun room hread rest => ?_
    have hbody := hread (some .rightBrace) (right :: rest) (by rintro _ ⟨⟩; rfl)
      (.inr (congrArg some hright)) (by rw [head_cons, hright]; exact nofun)
    rw [List.cons_append, List.append_assoc]
    exact block_braces hleft hbody hright

theorem Statements.reads {ts : List Token} {ss : List Stmt} (h : Statements ts ss) :
    Enough fun room => ∀ closing rest, (∀ k, closing = some k → k.beginsStatement = false) →
      (rest = [] ∨ some (State.head ⟨rest, finish, reports⟩).kind = closing) →
      (State.head ⟨rest, finish, reports⟩).kind ≠ .elseWord →
        statementsUntil closing (statement room) ⟨ts ++ rest, finish, reports⟩ =
          (ss, ⟨rest, finish, reports⟩) := by
  match h with
  | .nil => exact .always fun room closing rest _ hend _ => statementsUntil_end hend
  | @Statements.cons ts us s ss h hs =>
    refine (h.reads.and hs.reads).imp ?_
    rintro room ⟨hread, hothers⟩ closing rest hclosing hend helse
    have hfirst := hread (us ++ rest) (hs.head_ne_else helse)
    have hothers := hothers closing rest hclosing hend helse
    obtain ⟨t, us', rfl, ht⟩ := h.begins
    rw [List.append_assoc, statementsUntil_cons (by simp) ?_ hfirst ?_, hothers]
    · intro hkind
      have hnot := hclosing _ hkind.symm
      exact Bool.false_ne_true (hnot.symm.trans ht)
    · simp only [List.cons_append, List.length_append, List.length_cons]
      omega

end

end

end Grammar

/-! ## Scripts -/

/-- A derivation is what the parser finds, if it has enough room. -/
theorem parse_of_derives {tokens : List Token} {finish : Token} {p : Program}
    (htokens : ∀ t ∈ tokens, t.kind ≠ .finish) (hfinish : finish.kind = .finish)
    (h : Grammar.Derives tokens p)
    (hdeep : ¬∃ d ∈ (parse (tokens ++ [finish])).2, d.IsTooDeep) :
    parse (tokens ++ [finish]) = (p, []) := by
  obtain ⟨n, hread⟩ := @Grammar.Statements.reads finish [] _ _ h
  have hread := hread (max n maxNesting) (Nat.le_max_left ..) none [] (fun _ h => nomatch h)
    (.inl rfl) (by change finish.kind ≠ _; rw [hfinish]; exact nofun)
  unfold parse at hdeep ⊢
  rw [Parser.ofTokens_append htokens hfinish] at hdeep ⊢
  have hlimits := Parser.statementsUntil_limits
    (Parser.statement_limits (Nat.le_max_right n maxNesting)) _ hdeep
  rw [List.append_nil, hlimits] at hread
  simp only [hread]

/-- The parser reports nothing only for what the grammar derives, and then it gives the tree
of the derivation.  What the grammar derives is only reported for its depth. -/
theorem parse_derives {tokens : List Token} {finish : Token}
    (htokens : ∀ t ∈ tokens, t.kind ≠ .finish) (hfinish : finish.kind = .finish) :
    ((parse (tokens ++ [finish])).2 = [] →
      Grammar.Derives tokens (parse (tokens ++ [finish])).1) ∧
    ((∀ p, ¬Grammar.Derives tokens p) → (parse (tokens ++ [finish])).2 ≠ []) ∧
    ∀ p, Grammar.Derives tokens p → parse (tokens ++ [finish]) = (p, []) ∨
      ∃ d ∈ (parse (tokens ++ [finish])).2, d.IsTooDeep := by
  have hsound := derives_of_parse htokens hfinish
  refine ⟨hsound, fun hnone hreports => hnone _ (hsound hreports), fun p hp => ?_⟩
  by_cases hdeep : ∃ d ∈ (parse (tokens ++ [finish])).2, d.IsTooDeep
  · exact .inr hdeep
  · exact .inl (parse_of_derives htokens hfinish hp hdeep)

/-- `a - b;` -/
def difference : List Token :=
  [⟨.ident "a", ⟨1, 1⟩⟩, ⟨.minus, ⟨1, 3⟩⟩, ⟨.ident "b", ⟨1, 5⟩⟩, ⟨.semicolon, ⟨1, 6⟩⟩]

def differenceTree : Program :=
  ⟨[.evaluate 1 (.binary ⟨1, 3⟩ .sub (.ident ⟨1, 1⟩ "a") (.ident ⟨1, 5⟩ "b"))]⟩

theorem derives_difference : Grammar.Derives difference differenceTree := by
  have ha : Grammar.Expression 5 [⟨.ident "a", ⟨1, 1⟩⟩] (.ident ⟨1, 1⟩ "a") :=
    .operand (.plain (.plain (.ident rfl)))
  have hb : Grammar.Expression 6 [⟨.ident "b", ⟨1, 5⟩⟩] (.ident ⟨1, 5⟩ "b") :=
    .operand (.plain (.plain (.ident rfl)))
  have hminus : (⟨.minus, ⟨1, 3⟩⟩ : Token).kind = BinaryOp.sub.word := rfl
  have hlevel : 1 ≤ BinaryOp.sub.level := by decide
  have hlast : (⟨.semicolon, ⟨1, 6⟩⟩ : Token).kind = .semicolon := rfl
  exact .cons (.evaluate (.binary hminus hlevel ha hb) hlast) .nil

theorem parse_derives_difference :
    (∀ t ∈ difference, t.kind ≠ .finish) ∧ Grammar.Derives difference differenceTree ∧
      parse (difference ++ [⟨.finish, ⟨1, 7⟩⟩]) = (differenceTree, []) := by
  have htokens : ∀ t ∈ difference, t.kind ≠ .finish := by decide
  have hreports : (parse (difference ++ [⟨.finish, ⟨1, 7⟩⟩])).2 = [] := by decide +kernel
  have hfinish : (⟨.finish, ⟨1, 7⟩⟩ : Token).kind = .finish := rfl
  have hparse := (parse_derives htokens hfinish).2.2 _ derives_difference
  refine ⟨htokens, derives_difference, hparse.resolve_right ?_⟩
  rintro ⟨d, hd, -⟩
  rw [hreports] at hd
  cases hd

end Script
end CheckScript
