/-
A script that is read without a report is derived by the grammar.

One statement for each function of the parser says which part of the grammar the words it
passes are.  In a chain of operators the part on the left is known to be of some level, and the
next word to be no operator that binds closer than that.  Where a statement is left out, a
report has been made.
-/
import CheckScript.Proofs.Script.Derivation

namespace CheckScript
namespace Script

namespace Grammar

theorem Expression.mono {k l : Nat} {ts : List Token} {e : Expr} (h : Expression k ts e)
    (hl : l ≤ k) : Expression l ts e := by
  cases h with
  | operand h => exact .operand h
  | binary ht hlevel hleft hright => exact .binary ht (Nat.le_trans hl hlevel) hleft hright

/-- The next word is no operator that binds closer than level `k`. -/
def Open (k : Nat) (ts : List Token) : Prop := ∀ t, ts.head? = some t → Below k t.kind

end Grammar

namespace Parser

open Grammar

/-! ## Expressions -/

mutual

theorem reads_expressionAbove (room min : Nat) :
    Reads (expressionAbove room min) fun used e rest =>
      Expression (min + 1) used e ∧ Open min rest := by
  rw [expressionAbove]
  refine .bind (reads_unary room) fun left => (reads_operators room min left).weaken ?_
  intro used e rest h before hleft
  exact h (min + 6) before (by omega) (.operand hleft) fun u _ => below_of_le (by omega) u.kind
termination_by 5 * room + 3
decreasing_by all_goals omega

theorem reads_operators (room min : Nat) (left : Expr) :
    Reads (operators room min left) fun used e rest =>
      ∀ k ls, min < k → Expression k ls left → Open k (used ++ rest) →
        Expression (min + 1) (ls ++ used) e ∧ Open min rest := by
  rw [operators]
  refine .peek fun t => ?_
  split
  · rename_i hnone
    refine .pure fun rest hrest k ls hk hleft _ => ⟨?_, fun u hu op hop => ?_⟩
    · rw [List.append_nil]
      exact hleft.mono hk
    · rw [← hrest u hu, hop, BinaryOp.ofToken_word] at hnone
      cases hnone
  · rename_i op hsome
    have ht := BinaryOp.ofToken_eq_some.mp hsome
    split
    · rename_i hlevel
      refine .pure fun rest hrest k ls hk hleft _ => ⟨?_, fun u hu op' hop' => ?_⟩
      · rw [List.append_nil]
        exact hleft.mono hk
      · rw [← hrest u hu, hop', BinaryOp.ofToken_word] at hsome
        cases hsome
        exact hlevel
    · rename_i hlevel
      refine .nested fun r hr => .advance ht op.word_ne_finish ?_
      refine .bind (reads_expressionAbove r op.level) fun right => ?_
      refine (reads_operators r min (.binary t.place op left right)).weaken ?_
      -- no operator that binds closer follows the right part, so the chain goes on at the level
      -- of this operator, whatever the level of the left part was
      rintro used e rest h before ⟨hright, hopen⟩ k ls hk hleft hclose
      have hk : op.level ≤ k := hclose t rfl op ht
      have hbinary := Expression.binary ht (Nat.le_refl _) (hleft.mono hk) hright
      have hend := h op.level _ (Nat.lt_of_not_le hlevel) hbinary hopen
      simpa using hend
termination_by 5 * room
decreasing_by all_goals omega

theorem reads_unary (room : Nat) : Reads (unary room) fun used e _ => Operand used e := by
  rw [unary]
  refine .peek fun t => ?_
  split
  · rename_i op hop
    have ht := UnaryOp.ofToken_eq_some.mp hop
    refine .nested fun r hr => .advance ht op.word_ne_finish ?_
    refine .bind (reads_unary r) fun operand => .pure fun rest before hoperand => ?_
    rw [List.append_nil]
    exact .signed ht hoperand
  · refine Reads.bind (reads_primary room) (fun e => (reads_accesses room e).weaken ?_) t
    intro used e' rest h before hprimary
    exact .plain (h before (.plain hprimary))
termination_by 5 * room + 2
decreasing_by all_goals omega

theorem reads_accesses (room : Nat) (e : Expr) :
    Reads (accesses room e) fun used e' _ => ∀ ls, Accessed ls e → Accessed (ls ++ used) e' := by
  rw [accesses]
  refine .peek fun t => ?_
  split
  · rename_i hdot
    refine .nested fun r hr => .advance hdot nofun ?_
    refine .bind (reads_identifier _) fun name => .bind (reads_accept (by decide)) fun found => ?_
    cases found with
    | true =>
      refine .bind (reads_items r (by decide) _) fun args =>
        (reads_accesses r (.method t.place e name args)).weaken ?_
      rintro used e' rest h _ ⟨us, right, rfl, hargs, hright⟩ _ ⟨left, rfl, hleft⟩ _
        ⟨u, rfl, hu⟩ ls he
      have hend := h _ (.method he hdot hu hleft hargs hright)
      simpa using hend
    | false =>
      refine (reads_accesses r (.field t.place e name)).weaken ?_
      rintro used e' rest h before hbefore _ ⟨u, rfl, hu⟩ ls he
      obtain rfl : before = [] := hbefore
      have hend := h _ (.field he hdot hu)
      simpa using hend
  · rename_i hleft
    refine .nested fun r hr => .advance hleft nofun ?_
    refine .bind (reads_expressionAbove r 0) fun i => .bind (reads_expect (by decide) _) fun _ => ?_
    refine (reads_accesses r (.index t.place e i)).weaken ?_
    rintro used e' rest h _ ⟨right, rfl, hright⟩ us ⟨hi, -⟩ ls he
    have hend := h _ (.index he hleft hi hright)
    simpa using hend
  · rename_i hleft
    refine .nested fun r hr => ?_
    split
    · rename_i p name
      refine .advance hleft nofun (.bind (reads_items r (by decide) _) fun args => ?_)
      refine (reads_accesses r (.call p name args)).weaken ?_
      rintro used e' rest h _ ⟨us, right, rfl, hargs, hright⟩ ls he
      have hend := h _ (.call he hleft hargs hright)
      simpa using hend
    · exact .report _
  · refine .pure fun rest _ ls he => ?_
    rwa [List.append_nil]
termination_by 5 * room
decreasing_by all_goals omega

theorem reads_items (room : Nat) {closing : TokenKind} (hclosing : closing ≠ .finish)
    (what : Expectation) :
    Reads (listUpTo closing what (expressionAbove room 0)) fun used es _ =>
      ∃ us last, used = us ++ [last] ∧ Items us es ∧ last.kind = closing :=
  reads_listUpTo hclosing what ((reads_expressionAbove room 0).weaken fun _ _ _ h => h.1)
termination_by 5 * room + 4
decreasing_by all_goals omega

theorem reads_primary (room : Nat) : Reads (primary room) fun used e _ => Primary used e := by
  rw [primary]
  refine .peek fun t => ?_
  split
  · rename_i ht
    exact .advance ht nofun (.pure fun _ => .int ht)
  · rename_i ht
    exact .advance ht nofun (.pure fun _ => .str ht)
  · rename_i ht
    exact .advance ht nofun (.pure fun _ => .yes ht)
  · rename_i ht
    exact .advance ht nofun (.pure fun _ => .no ht)
  · rename_i ht
    exact .advance ht nofun (.pure fun _ => .null ht)
  · rename_i ht
    exact .advance ht nofun (.pure fun _ => .ident ht)
  · rename_i hleft
    refine .nested fun r hr => .advance hleft nofun ?_
    refine .bind (reads_expressionAbove r 0) fun e => ?_
    refine .bind (reads_expect (by decide) _) fun _ => .pure ?_
    rintro rest _ ⟨right, rfl, hright⟩ us ⟨he, -⟩
    exact .group hleft he hright
  · rename_i hleft
    refine .nested fun r hr => .advance hleft nofun ?_
    refine .bind (reads_items r (by decide) _) fun es => .pure ?_
    rintro rest _ ⟨us, right, rfl, hes, hright⟩
    simpa using Primary.list hleft hes hright
  · exact .report _
termination_by 5 * room + 1
decreasing_by all_goals omega

end

theorem reads_expression (room : Nat) :
    Reads (expression room) fun used e _ => Expression 1 used e :=
  (reads_expressionAbove room 0).weaken fun _ _ _ h => h.1

/-! ## Conditions -/

/-- A condition with its body and the word behind it if that announces another branch. -/
inductive Arm (first : Token) : List Token → Nat × Expr × List Stmt × Bool → Prop where
  | last {ts us : List Token} {c : Expr} {b : List Stmt} (hfirst : first.kind = .ifWord)
      (hc : Expression 1 ts c) (hb : Block us b) :
      Arm first (first :: (ts ++ us)) (first.place.line, c, b, false)
  | more {ts us : List Token} {t : Token} {c : Expr} {b : List Stmt}
      (hfirst : first.kind = .ifWord) (hc : Expression 1 ts c) (hb : Block us b)
      (ht : t.kind = .elseWord) :
      Arm first (first :: (ts ++ us ++ [t])) (first.place.line, c, b, true)

section

variable {cond : Parser Expr} {body : Parser (List Stmt)}

theorem readsAt_arm (hcond : Reads cond fun used c _ => Expression 1 used c)
    (hbody : Reads body fun used b _ => Block used b) {t : Token} (ht : t.kind = .ifWord) :
    ReadsAt t (arm cond body) fun used r _ => Arm t used r := by
  refine .advance ht nofun (.bind hcond fun c => .bind hbody fun b => ?_)
  refine .bind (reads_accept (by decide)) fun found => .pure ?_
  intro rest before hbefore us hb ts hc
  cases found with
  | true =>
    obtain ⟨u, rfl, hu⟩ := hbefore
    simpa using Arm.more ht hc hb hu
  | false =>
    obtain rfl : before = [] := hbefore
    simpa using Arm.last ht hc hb

/-- A block begins with the next word, which gives it its line. -/
theorem readsAt_block (hbody : Reads body fun used b _ => Block used b) (t : Token) :
    ReadsAt t body fun used b _ => ∃ us, used = t :: us ∧ Block (t :: us) b := by
  refine (hbody t).heads.weaken ?_
  rintro used b _ ⟨hb, hhead⟩
  cases hb with
  | @braces ts left right _ hleft h hright =>
    obtain rfl := hhead left _ rfl
    exact ⟨_, rfl, .braces hleft h hright⟩

theorem conditional_outcome (hcond : Reads cond fun used c _ => Expression 1 used c)
    (hbody : Reads body fun used b _ => Block used b) {s : State}
    (hfinish : s.finish.kind = .finish) (hfirst : s.head.kind = .ifWord) :
    Outcome s (fun used stmt _ => Conditional used stmt) (conditional cond body s) := by
  have harm : ∀ s : State, s.finish.kind = .finish → s.head.kind = .ifWord →
      Outcome s (fun used r _ => Arm s.head used r) (arm cond body s) :=
    fun s hfinish hfirst => readsAt_arm hcond hbody hfirst s hfinish rfl
  fun_induction conditional cond body s with
  | case1 s t hs =>
    have h := harm s hfinish hfirst
    rw [hs] at h
    exact h.of_none
  | case2 s line c b t hs =>
    have h := harm s hfinish hfirst
    rw [hs] at h
    refine h.map fun used _ hused => ?_
    cases hused with
    | last hfirst hc hb => exact .plain hfirst hc hb
  | case3 s line c b t hs hif hlength u hother ih =>
    have h := harm s hfinish hfirst
    rw [hs] at h
    have hrest := ih (h.finish_eq ▸ hfinish) hif
    rw [hother] at hrest
    exact h.andThen hrest.of_none
  | case4 s line c b t hs hif hlength other u hother ih =>
    have h := harm s hfinish hfirst
    rw [hs] at h
    have hrest := ih (h.finish_eq ▸ hfinish) hif
    rw [hother] at hrest
    refine h.andThen (hrest.map fun used _ hused before hbefore => ?_)
    cases hbefore with
    | more hfirst hc hb ht =>
      simpa using Conditional.otherwise hfirst hc hb ht (.branch hused)
  | case5 s line c b t hs hif hlength =>
    have h := harm s hfinish hfirst
    rw [hs] at h
    refine h.of_not_passed fun used hused hbefore => hlength ?_
    rw [hused]
    cases hbefore with
    | more =>
      simp only [List.length_append, List.length_cons]
      omega
  | case6 s line c b t hs hif u hother =>
    have h := harm s hfinish hfirst
    rw [hs] at h
    have hrest := readsAt_block hbody t.head t (h.finish_eq ▸ hfinish) rfl
    rw [hother] at hrest
    exact h.andThen hrest.of_none
  | case7 s line c b t hs hif stmts u hother =>
    have h := harm s hfinish hfirst
    rw [hs] at h
    have hrest := readsAt_block hbody t.head t (h.finish_eq ▸ hfinish) rfl
    rw [hother] at hrest
    refine h.andThen (hrest.map ?_)
    rintro used _ ⟨us, rfl, hblock⟩ before hbefore
    cases hbefore with
    | more hfirst hc hb ht => simpa using Conditional.otherwise hfirst hc hb ht (.block hblock)

end

/-! ## Statements -/

/-- Statement by statement to the closing word, or to the end of the script. -/
theorem statementsUntil_outcome (closing : Option TokenKind) {p : Parser Stmt}
    (hp : Reads p fun used stmt _ => Statement used stmt) {s : State}
    (hfinish : s.finish.kind = .finish) :
    Outcome s (fun used ss rest => Statements used ss ∧ (closing = none → rest = []))
      (some (statementsUntil closing p s).1, (statementsUntil closing p s).2) := by
  have hfirst : ∀ s : State, s.finish.kind = .finish → Outcome s
      (fun used stmt _ => Statement used stmt) (p s) := fun s hfinish => hp s.head s hfinish rfl
  fun_induction statementsUntil closing p s with
  | case1 s hs => exact .stay ⟨.nil, fun _ => hs⟩
  | case2 s hs hclosing =>
    refine .stay ⟨.nil, fun h => ?_⟩
    rw [h] at hclosing
    cases hclosing
  | case3 s hs hclosing stmt t hst _ r ih =>
    have h := hfirst s hfinish
    rw [hst] at h
    have hothers := ih (by rw [onward_finish, h.finish_eq, hfinish])
    refine (h.onward fun used hstmt => ?_).andThen (hothers.map ?_)
    · obtain ⟨u, us, rfl, -⟩ := hstmt.begins
      exact List.cons_ne_nil u us
    · rintro used rest ⟨hss, hend⟩ before hstmt
      exact ⟨.cons hstmt hss, hend⟩
  | case4 s hs hclosing t hst _ ih =>
    have h := hfirst s hfinish
    rw [hst] at h
    -- words are skipped here, but only behind a report
    cases h with
    | reported hfinish' hmore =>
      have hsame : (onward s (recover t)).finish = s.finish := by rw [onward_finish]; exact hfinish'
      refine .of_reported hsame ?_ (ih (hsame ▸ hfinish))
      rw [onward_diagnostics]
      exact hmore

theorem reads_statements {closing : TokenKind} {p : Parser Stmt}
    (hp : Reads p fun used stmt _ => Statement used stmt) :
    Reads (fun s => (some (statementsUntil (some closing) p s).1,
      (statementsUntil (some closing) p s).2)) fun used ss _ => Statements used ss := by
  intro t s hfinish _
  exact (statementsUntil_outcome _ hp hfinish).weaken fun used ss _ h => h.1

/-- An expression with a semicolon behind it, on the line of the next word. -/
theorem readsAt_evaluate (room : Nat) (t : Token) :
    ReadsAt t (do
      let e ← expression room
      expect .semicolon .expressionEnd
      return .evaluate t.place.line e) fun used stmt _ => Statement used stmt := by
  refine .bind (reads_expression room t).heads fun e => .bind (reads_expect (by decide) _) fun _ =>
    .pure ?_
  rintro rest _ ⟨last, rfl, hlast⟩ ts ⟨he, hhead⟩
  obtain ⟨u, us, rfl, -⟩ := he.begins
  obtain rfl := hhead u us rfl
  simpa using Statement.evaluate he hlast

mutual

theorem reads_statement (room : Nat) :
    Reads (statement room) fun used stmt _ => Statement used stmt := by
  rw [statement]
  refine .peek fun t => ?_
  cases ht : t.kind with
  | letWord =>
    refine .advance ht nofun (.bind (reads_identifier _) fun name => ?_)
    refine .bind (reads_expect (by decide) _) fun _ => .bind (reads_expression room) fun value => ?_
    refine .bind (reads_expect (by decide) _) fun _ => .pure ?_
    rintro rest _ ⟨last, rfl, hlast⟩ ts hvalue _ ⟨equal, rfl, hequal⟩ _ ⟨u, rfl, hu⟩
    simpa using Statement.declare ht hu hequal hvalue hlast
  | ifWord =>
    intro s hfinish hhead
    refine (conditional_outcome (reads_expression room) (reads_block room) hfinish ?_).weaken ?_
    · rw [hhead, ht]
    · exact fun used stmt _ h => .branch h
  | whileWord =>
    refine .advance ht nofun (.bind (reads_expression room) fun cond => ?_)
    refine .bind (reads_block room) fun body => .pure fun rest us hbody ts hcond => ?_
    simpa using Statement.loop ht hcond hbody
  | forWord =>
    refine .advance ht nofun (.bind (reads_identifier _) fun name => ?_)
    refine .bind (reads_expect (by decide) _) fun _ => .bind (reads_expression room) fun items => ?_
    refine .bind (reads_block room) fun body => .pure ?_
    rintro rest us hbody ts hitems _ ⟨inWord, rfl, hin⟩ _ ⟨u, rfl, hu⟩
    simpa using Statement.each ht hu hin hitems hbody
  | checkpointWord =>
    refine .advance ht nofun (.bind reads_checkpointName fun name => ?_)
    refine .bind (reads_block room) fun body => .pure ?_
    rintro rest us hbody _ ⟨u, rfl, hu⟩
    simpa using Statement.checkpoint ht hu hbody
  | leftBrace =>
    refine .bind (readsAt_block (reads_block room) t) fun body => .pure ?_
    rintro rest _ ⟨us, rfl, hbody⟩
    simpa using Statement.block hbody
  | ident name =>
    refine .second (by decide) (fun equal hequal => ?_) (readsAt_evaluate room t)
    refine .bind (reads_expression room) fun value => .bind (reads_expect (by decide) _) fun _ => ?_
    refine .pure ?_
    rintro rest _ ⟨last, rfl, hlast⟩ ts hvalue
    simpa using Statement.assign ht hequal hvalue hlast
  | _ => exact readsAt_evaluate room t
termination_by 2 * room + 1
decreasing_by all_goals omega

theorem reads_block (room : Nat) : Reads (block room) fun used body _ => Block used body := by
  rw [block]
  refine .bind (reads_expect (by decide) _) fun _ => .nested fun r hr => ?_
  refine .bind (reads_statements (reads_statement r)) fun body => ?_
  refine .bind (reads_expect (by decide) _) fun _ => .pure ?_
  rintro rest _ ⟨right, rfl, hright⟩ ts hbody _ ⟨left, rfl, hleft⟩
  simpa using Block.braces hleft hbody hright
termination_by 2 * room
decreasing_by all_goals omega

end

end Parser

/-- Without a report the words of a script are a derivation of its tree. -/
theorem derives_of_parse {tokens : List Token} {finish : Token}
    (htokens : ∀ t ∈ tokens, t.kind ≠ .finish) (hfinish : finish.kind = .finish)
    (h : (parse (tokens ++ [finish])).2 = []) :
    Grammar.Derives tokens (parse (tokens ++ [finish])).1 := by
  have hstart := Parser.ofTokens_append htokens hfinish
  have houtcome := Parser.statementsUntil_outcome none
    (Parser.reads_statement maxNesting) (s := ⟨tokens, finish, []⟩) hfinish
  unfold parse at h ⊢
  rw [hstart] at h ⊢
  generalize Parser.statementsUntil none (Parser.statement maxNesting) ⟨tokens, finish, []⟩ = r
    at houtcome h ⊢
  obtain ⟨ss, t⟩ := r
  cases houtcome with
  | reported hfinish' hmore =>
    simp only at h
    rw [h] at hmore
    exact absurd hmore (Nat.lt_irrefl 0)
  | passed hrest hss =>
    obtain ⟨hss, hend⟩ := hss
    obtain rfl : tokens = _ := by simpa [hend rfl] using hrest
    exact hss

end Script
end CheckScript
