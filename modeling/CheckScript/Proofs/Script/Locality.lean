/-
The parser does not look past the next word.

`s.within frame` is the state `s` inside a longer script: earlier problems are on the list,
further words follow, and the end is marked elsewhere.  As long as words of `s` are left, a parser
cannot tell the two apart (`Local`).  Every rule of the grammar keeps this up.  The one look at
the word behind the next one, for the equals sign of an assignment, is made before a name, which
the parser passes in any case.

A block and most statements end with a word of their own, so that nothing behind them is looked
at even when all words are used up.  Only a condition looks for an `else` (`statement_within`).
-/
import CheckScript.Proofs.Script.Progress

namespace CheckScript
namespace Script
namespace Parser

/-- A script around a part of it: the problems before the part, the words behind it, and the mark
of the end. -/
structure Frame where
  before : List Diagnostic
  more : List Token
  finish : Token
  marked : finish.kind = .finish

def State.within (frame : Frame) (s : State) : State :=
  ⟨s.rest ++ frame.more, frame.finish, frame.before ++ s.diagnostics⟩

theorem State.within_head {s : State} (h : s.rest ≠ []) (frame : Frame) :
    (s.within frame).head = s.head := by
  unfold State.head State.within
  cases hrest : s.rest with
  | nil => exact absurd hrest h
  | cons t rest => rfl

theorem within_ne_nil {s : State} (h : s.rest ≠ []) (frame : Frame) : (s.within frame).rest ≠ [] :=
  List.append_ne_nil_of_left_ne_nil h frame.more

theorem within_cons {s : State} {t : Token} {rest : List Token} (h : s.rest = t :: rest)
    (frame : Frame) : (s.within frame).rest = t :: (rest ++ frame.more) := by
  rw [State.within, h, List.cons_append]

theorem within_rest (s : State) (rest : List Token) (frame : Frame) :
    State.within frame { s with rest := rest } =
      { s.within frame with rest := rest ++ frame.more } := rfl

theorem within_length (s t : State) (frame : Frame) :
    (t.within frame).rest.length < (s.within frame).rest.length ↔
      t.rest.length < s.rest.length := by
  simp only [State.within, List.length_append]
  exact Nat.add_lt_add_iff_right

theorem second?_within {s : State} {t u : Token} {rest : List Token} (h : s.rest = t :: u :: rest)
    (frame : Frame) : (s.within frame).second? = s.second? := by
  rw [State.second?, within_cons h, State.second?, h]
  rfl

structure Local {α : Type} (p : Parser α) : Prop where
  agree : ∀ s frame, (p s).2.rest ≠ [] → p (s.within frame) = ((p s).1, (p s).2.within frame)
  behind : ∀ s, (p s).2.rest <:+ s.rest ∧ (p s).2.finish = s.finish

theorem Local.rest_ne_nil {α : Type} {p : Parser α} (hp : Local p) {s : State}
    (h : (p s).2.rest ≠ []) : s.rest ≠ [] :=
  fun hnil => h (List.suffix_nil.mp (hnil ▸ (hp.behind s).1))

/-! ## Rules -/

namespace Local

variable {α β : Type}

theorem of_stable {p : Parser α}
    (hagree : ∀ s frame, (p s).2.rest ≠ [] →
      p (s.within frame) = ((p s).1, (p s).2.within frame))
    (hstable : ∀ {I : State → Prop}, Stable I → Preserves I p) : Local p :=
  ⟨hagree, fun s => hstable (behind_stable s.rest s.finish) s ⟨List.suffix_refl _, rfl⟩⟩

theorem pure (a : α) : Local (pure a : Parser α) :=
  of_stable (fun _ _ _ => rfl) fun _ => Preserves.pure a

theorem bind {p : Parser α} {f : α → Parser β} (hp : Local p) (hf : ∀ a, Local (f a)) :
    Local (p >>= f) := by
  have hbehind : ∀ s, ((p >>= f) s).2.rest <:+ (p s).2.rest ∧
      ((p >>= f) s).2.finish = (p s).2.finish := by
    intro s
    rw [bind_apply]
    split
    · rename_i a t hs
      rw [hs]
      exact (hf a).behind t
    · rename_i t hs
      rw [hs]
      exact ⟨List.suffix_refl _, rfl⟩
  refine ⟨fun s frame h => ?_, fun s =>
    ⟨(hbehind s).1.trans (hp.behind s).1, (hbehind s).2.trans (hp.behind s).2⟩⟩
  have hfirst : (p s).2.rest ≠ [] := fun hnil =>
    h (List.suffix_nil.mp (hnil ▸ (hbehind s).1))
  have hagree := hp.agree s frame hfirst
  rw [bind_apply] at h ⊢
  rw [hagree, bind_apply]
  cases hs : p s with | mk found t => ?_
  rw [hs] at h
  cases found with
  | none => rfl
  | some a => exact (hf a).agree t frame h

theorem peek : Local peek := by
  refine of_stable (fun s frame h => ?_) fun _ => Preserves.peek
  exact Prod.ext (congrArg some (State.within_head h frame)) rfl

theorem report (problem : TokenKind → Problem) : Local (report problem : Parser α) := by
  refine of_stable (fun s frame h => ?_) fun hI => hI.reports problem
  have hhead := State.within_head (s := s) h frame
  unfold Parser.report
  rw [hhead]
  simp only [State.within, List.append_assoc]

theorem missing (what : Expectation) : Local (missing what : Parser α) := report _

theorem advance : Local advance := by
  refine of_stable (fun s frame h => ?_) fun hI => hI.advance
  cases hrest : s.rest with
  | nil =>
    rw [Parser.advance, hrest] at h
    exact absurd hrest h
  | cons t rest =>
    rw [advance_cons hrest]
    exact advance_cons (s := s.within frame) (by rw [State.within, hrest]; rfl)

theorem expect (kind : TokenKind) (what : Expectation) : Local (expect kind what) := by
  refine bind peek fun t => ?_
  split
  · exact bind advance fun _ => pure _
  · exact missing what

theorem accept (kind : TokenKind) : Local (accept kind) := by
  refine bind peek fun t => ?_
  split
  · exact bind advance fun _ => pure _
  · exact pure _

theorem identifier (what : Expectation) : Local (identifier what) := by
  refine bind peek fun t => ?_
  split
  · exact bind advance fun _ => pure _
  · exact missing what

theorem checkpointName : Local checkpointName := by
  refine bind peek fun t => ?_
  split
  · exact bind advance fun _ => pure _
  · exact missing _

theorem nested {room : Nat} {p : (r : Nat) → r < room → Parser α}
    (h : ∀ r hr, Local (p r hr)) : Local (nested room p) := by
  cases room with
  | zero => exact report .tooDeep
  | succ r => exact h r (Nat.lt_succ_self r)

theorem separated {p : Parser α} (hp : Local p) : Local (separated p) := by
  have hbehind : ∀ s : State, (Parser.separated p s).2.rest <:+ (p s).2.rest ∧
      (Parser.separated p s).2.finish = (p s).2.finish := fun s =>
    (behind_stable (p s).2.rest (p s).2.finish).separated_behind
      (fun t ht => ⟨(hp.behind t).1.trans ht.1, (hp.behind t).2.trans ht.2⟩)
      ⟨List.suffix_refl _, rfl⟩
  refine ⟨fun s frame h => ?_, fun s =>
    ⟨(hbehind s).1.trans (hp.behind s).1, (hbehind s).2.trans (hp.behind s).2⟩⟩
  have hfirst : ∀ s, (Parser.separated p s).2.rest ≠ [] →
      p (s.within frame) = ((p s).1, (p s).2.within frame) := fun s h =>
    hp.agree s frame fun hnil => h (List.suffix_nil.mp (hnil ▸ (hbehind s).1))
  have hagree := hfirst s h
  fun_induction Parser.separated p s with
  | case1 s t hs => rw [Parser.separated, hagree, hs]
  | case2 s a t hs hrest => exact absurd hrest h
  | case3 s a t hs comma rest hrest hcomma hlength u hmore ih
  | case4 s a t hs comma rest hrest hcomma hlength as u hmore ih =>
    rw [hmore] at ih
    have hothers := ih h (hfirst _ (by rwa [hmore]))
    rw [Parser.separated, hagree, hs]
    simp only [within_cons hrest]
    have hlong : (rest ++ frame.more).length < (s.within frame).rest.length :=
      (within_length s { t with rest := rest } frame).mpr hlength
    rw [if_pos hcomma, if_pos hlong, ← within_rest, hothers]
  | case5 s a t hs comma rest hrest hcomma hlength =>
    rw [Parser.separated, hagree, hs]
    simp only [within_cons hrest]
    have hlong : ¬(rest ++ frame.more).length < (s.within frame).rest.length :=
      mt (within_length s { t with rest := rest } frame).mp hlength
    rw [if_pos hcomma, if_neg hlong]
  | case6 s a t hs comma rest hrest hcomma =>
    rw [Parser.separated, hagree, hs]
    simp only [within_cons hrest]
    rw [if_neg hcomma]

theorem listUpTo (closing : TokenKind) (what : Expectation) {p : Parser α} (hp : Local p) :
    Local (listUpTo closing what p) := by
  refine bind (accept closing) fun found => ?_
  cases found with
  | true => exact pure _
  | false => exact bind hp.separated fun _ => bind (expect closing what) fun _ => pure _

theorem arm {cond : Parser Expr} {body : Parser (List Stmt)} (hcond : Local cond)
    (hbody : Local body) : Local (arm cond body) :=
  bind advance fun _ => bind hcond fun _ => bind hbody fun _ => bind (accept _) fun _ => pure _

theorem conditional {cond : Parser Expr} {body : Parser (List Stmt)} (hcond : Local cond)
    (hbody : Local body) : Local (conditional cond body) := by
  have harm := hcond.arm hbody
  have hbehind : ∀ s : State,
      (Parser.conditional cond body s).2.rest <:+ (Parser.arm cond body s).2.rest ∧
        (Parser.conditional cond body s).2.finish = (Parser.arm cond body s).2.finish := fun s =>
    (behind_stable _ _).conditional_behind
      (fun t ht => ⟨(hcond.behind t).1.trans ht.1, (hcond.behind t).2.trans ht.2⟩)
      (fun t ht => ⟨(hbody.behind t).1.trans ht.1, (hbody.behind t).2.trans ht.2⟩)
      ⟨List.suffix_refl _, rfl⟩
  refine ⟨fun s frame h => ?_, fun s =>
    ⟨(hbehind s).1.trans (harm.behind s).1, (hbehind s).2.trans (harm.behind s).2⟩⟩
  have hne : ∀ s, (Parser.conditional cond body s).2.rest ≠ [] →
      (Parser.arm cond body s).2.rest ≠ [] := fun s h hnil =>
    h (List.suffix_nil.mp (hnil ▸ (hbehind s).1))
  have hfirst := hne s h
  have hagree := harm.agree s frame hfirst
  fun_induction Parser.conditional cond body s with
  | case1 s t hs | case2 s line c b t hs => rw [Parser.conditional, hagree, hs]
  | case3 s line c b t hs hif hlength u hother ih
  | case4 s line c b t hs hif hlength other u hother ih =>
    rw [hother] at ih
    rw [hs] at hagree hfirst
    have hnext := hne t (by rwa [hother])
    have hothers := ih h hnext (harm.agree t frame hnext)
    rw [Parser.conditional, hagree]
    simp only [State.within_head hfirst]
    have hlong := (within_length s t frame).mpr hlength
    rw [if_pos hif, if_pos hlong, hothers]
  | case5 s line c b t hs hif hlength =>
    rw [hs] at hagree hfirst
    rw [Parser.conditional, hagree]
    simp only [State.within_head hfirst]
    have hlong := mt (within_length s t frame).mp hlength
    rw [if_pos hif, if_neg hlong]
  | case6 s line c b t hs hif u hother | case7 s line c b t hs hif stmts u hother =>
    rw [hs] at hagree hfirst
    have hothers := hbody.agree t frame (by rwa [hother])
    rw [hother] at hothers
    rw [Parser.conditional, hagree]
    simp only [State.within_head hfirst]
    rw [if_neg hif, hothers]

end Local

/-! ## Loops over statements -/

theorem skipStatement_append {ts : List Token} (h : skipStatement ts ≠ []) (more : List Token) :
    skipStatement (ts ++ more) = skipStatement ts ++ more := by
  induction ts with
  | nil => exact absurd rfl h
  | cons t rest ih =>
    rw [List.cons_append]
    unfold skipStatement at h ⊢
    split at h
    · rfl
    iterate 6 rfl
    · exact ih h

theorem recover_within {s : State} (h : (recover s).rest ≠ []) (frame : Frame) :
    recover (s.within frame) = (recover s).within frame := by
  unfold recover
  change { s.within frame with rest := skipStatement (s.rest ++ frame.more) } = _
  rw [skipStatement_append h]
  rfl

theorem onward_within {s : State} (h : s.rest ≠ []) (t : State) (frame : Frame) :
    onward (s.within frame) (t.within frame) = (onward s t).within frame := by
  have hdrop : (s.rest ++ frame.more).drop 1 = s.rest.drop 1 ++ frame.more := by
    rw [List.drop_append_of_le_length (List.length_pos_iff.mpr h)]
  unfold onward
  by_cases hlength : t.rest.length < s.rest.length
  · have hlong := (within_length s t frame).mpr hlength
    rw [if_pos hlength, if_pos hlong]
  · have hlong := mt (within_length s t frame).mp hlength
    rw [if_neg hlength, if_neg hlong]
    unfold State.within
    simp only [hdrop]

/-- Going on without words means that none were left. -/
theorem rest_of_onward {s t : State} (h : (onward s t).rest ≠ []) (hs : s.rest ≠ []) :
    t.rest ≠ [] := by
  intro hnil
  have hlength : t.rest.length < s.rest.length := by
    rw [hnil]
    exact List.length_pos_iff.mpr hs
  rw [onward_of_lt hlength] at h
  exact h hnil

theorem statementsUntil_local (closing : Option TokenKind) {p : Parser Stmt} (hp : Local p) :
    Local fun s => (some (statementsUntil closing p s).1, (statementsUntil closing p s).2) := by
  have hbehind : ∀ s, (statementsUntil closing p s).2.rest <:+ s.rest ∧
      (statementsUntil closing p s).2.finish = s.finish := fun s =>
    (behind_stable s.rest s.finish).statementsUntil closing
      (fun t ht => ⟨(hp.behind t).1.trans ht.1, (hp.behind t).2.trans ht.2⟩)
      ⟨List.suffix_refl _, rfl⟩
  have hlocal : ∀ s, (statementsUntil closing p s).2.rest ≠ [] → s.rest ≠ [] := fun s h hnil =>
    h (List.suffix_nil.mp (hnil ▸ (hbehind s).1))
  refine ⟨fun s frame h => ?_, hbehind⟩
  · suffices hagree : statementsUntil closing p (s.within frame) =
        ((statementsUntil closing p s).1, (statementsUntil closing p s).2.within frame) by
      simp only [hagree]
    simp only at h
    fun_induction statementsUntil closing p s with
    | case1 s hs => exact absurd hs h
    | case2 s hs hclosing =>
      exact statementsUntil_end (.inr (by rw [State.within_head hs]; exact hclosing))
    | case3 s hs hclosing stmt t hst _ r ih =>
      have hnext := rest_of_onward (hlocal _ h) hs
      have hagree := hp.agree s frame (by rwa [hst])
      rw [hst] at hagree
      rw [statementsUntil, dif_neg (within_ne_nil hs frame), State.within_head hs,
        if_neg hclosing, hagree]
      simp only [onward_within hs, ih h]
      rfl
    | case4 s hs hclosing t hst _ ih =>
      have hnext := rest_of_onward (hlocal _ h) hs
      have hleft : (p s).2.rest ≠ [] := by
        rw [hst]
        exact fun hnil => hnext (by rw [recover, hnil]; rfl)
      have hagree := hp.agree s frame hleft
      rw [hst] at hagree
      rw [statementsUntil, dif_neg (within_ne_nil hs frame), State.within_head hs,
        if_neg hclosing, hagree]
      simp only [recover_within hnext, onward_within hs, ih h]

/-! ## The grammar -/

mutual

theorem expressionAbove_local (room min : Nat) : Local (expressionAbove room min) := by
  rw [expressionAbove]
  exact .bind (unary_local room) fun left => operators_local room min left
termination_by 4 * room + 3
decreasing_by all_goals omega

theorem operators_local (room min : Nat) (left : Expr) : Local (operators room min left) := by
  rw [operators]
  refine .bind .peek fun t => ?_
  split
  · exact .pure _
  · split
    · exact .pure _
    · exact .nested fun r hr => .bind .advance fun _ =>
        .bind (expressionAbove_local r _) fun right => operators_local r min _
termination_by 4 * room
decreasing_by all_goals omega

theorem unary_local (room : Nat) : Local (unary room) := by
  rw [unary]
  refine .bind .peek fun t => ?_
  split
  · exact .nested fun r hr => .bind .advance fun _ => .bind (unary_local r) fun _ => .pure _
  · exact .bind (primary_local room) fun e => accesses_local room e
termination_by 4 * room + 2
decreasing_by all_goals omega

theorem accesses_local (room : Nat) (e : Expr) : Local (accesses room e) := by
  rw [accesses]
  refine .bind .peek fun t => ?_
  split
  · refine .nested fun r hr => .bind .advance fun _ => .bind (.identifier _) fun name =>
      .bind (.accept _) fun found => ?_
    cases found with
    | true =>
      exact .bind (.listUpTo _ _ (expressionAbove_local r 0)) fun args => accesses_local r _
    | false => exact accesses_local r _
  · exact .nested fun r hr => .bind .advance fun _ => .bind (expressionAbove_local r 0) fun i =>
      .bind (.expect _ _) fun _ => accesses_local r _
  · refine .nested fun r hr => ?_
    split
    · exact .bind .advance fun _ => .bind (.listUpTo _ _ (expressionAbove_local r 0)) fun args =>
        accesses_local r _
    · exact .report _
  · exact .pure _
termination_by 4 * room
decreasing_by all_goals omega

theorem primary_local (room : Nat) : Local (primary room) := by
  rw [primary]
  refine .bind .peek fun t => ?_
  split
  iterate 6 exact .bind .advance fun _ => .pure _
  · exact .nested fun r hr => .bind .advance fun _ => .bind (expressionAbove_local r 0) fun e =>
      .bind (.expect _ _) fun _ => .pure _
  · exact .nested fun r hr => .bind .advance fun _ =>
      .bind (.listUpTo _ _ (expressionAbove_local r 0)) fun _ => .pure _
  · exact .missing _
termination_by 4 * room + 1
decreasing_by all_goals omega

end

theorem expression_local (room : Nat) : Local (expression room) := expressionAbove_local room 0

/-- A single name is passed by whatever expression it begins. -/
theorem expression_name (room : Nat) {s : State} {t : Token} {name : String}
    (hs : s.rest = [t]) (ht : t.kind = .ident name) : (expression room s).2.rest = [] := by
  have hhead : s.head.kind = .ident name := by rw [State.head, hs, ht]
  have hprimary : primary room s = (some (.ident t.place name), { s with rest := [] }) := by
    rw [primary, peek_cons _ hs, ht]
    exact bind_some (advance_cons hs)
  have haccesses := (accesses_local room (.ident t.place name)).behind { s with rest := [] }
  have hnil : (unary room s).2.rest = [] := by
    rw [unary_plain room (by rw [hhead]; rfl), bind_some hprimary]
    exact List.suffix_nil.mp haccesses.1
  rw [expression, expressionAbove, bind_apply]
  split
  · rename_i left u hu
    rw [hu] at hnil
    have hoperators := ((operators_local room 0 left).behind u).1
    rw [hnil] at hoperators
    exact List.suffix_nil.mp hoperators
  · rename_i u hu
    rwa [hu] at hnil

/-- An expression with a semicolon behind it. -/
theorem valued_local (room : Nat) (what : Expectation) (make : Expr → Stmt) : Local (do
    let e ← expression room
    expect .semicolon what
    return make e) :=
  .bind (expression_local room) fun _ => .bind (.expect _ _) fun _ => .pure _

theorem valued_name (room : Nat) (what : Expectation) (make : Expr → Stmt) {s : State} {t : Token}
    {name : String} (hs : s.rest = [t]) (ht : t.kind = .ident name) :
    ((do
      let e ← expression room
      expect .semicolon what
      return make e : Parser Stmt) s).2.rest = [] := by
  have hnil := expression_name room hs ht
  rw [bind_apply]
  split
  · rename_i e u hu
    rw [hu] at hnil
    have hlast : Local (expect .semicolon what >>= fun _ => pure (make e) : Parser Stmt) :=
      .bind (.expect _ _) fun _ => .pure _
    exact List.suffix_nil.mp (hnil ▸ (hlast.behind u).1)
  · rename_i u hu
    rwa [hu] at hnil

theorem second_bind {α : Type} (f : Option TokenKind → Parser α) (s : State) :
    (second >>= f) s = f s.second? s := rfl

mutual

theorem statement_local (room : Nat) : Local (statement room) := by
  refine ⟨fun s frame h => ?_, statement_behind room⟩
  have hne : s.rest ≠ [] := fun hnil =>
    h (List.suffix_nil.mp (hnil ▸ (statement_behind room s).1))
  have hhead := State.within_head hne frame
  rw [statement, peek_bind] at h ⊢
  rw [peek_bind, hhead]
  cases hkind : s.head.kind with
  | letWord =>
    rw [hkind] at h
    refine Local.agree (.bind .advance fun _ => .bind (.identifier _) fun name => ?_) s _ h
    exact .bind (.expect _ _) fun _ => valued_local room _ _
  | ifWord =>
    rw [hkind] at h
    exact (Local.conditional (expression_local room) (block_local room)).agree s _ h
  | whileWord =>
    rw [hkind] at h
    refine Local.agree (.bind .advance fun _ => .bind (expression_local room) fun _ => ?_) s _ h
    exact .bind (block_local room) fun _ => .pure _
  | forWord =>
    rw [hkind] at h
    refine Local.agree (.bind .advance fun _ => .bind (.identifier _) fun name => ?_) s _ h
    exact .bind (.expect _ _) fun _ => .bind (expression_local room) fun _ =>
      .bind (block_local room) fun _ => .pure _
  | checkpointWord =>
    rw [hkind] at h
    refine Local.agree (.bind .advance fun _ => .bind .checkpointName fun name => ?_) s _ h
    exact .bind (block_local room) fun _ => .pure _
  | leftBrace =>
    rw [hkind] at h
    exact Local.agree (.bind (block_local room) fun _ => .pure _) s _ h
  | ident name =>
    rw [hkind] at h
    simp only [second_bind] at h ⊢
    cases hrest : s.rest with
    | nil => exact absurd hrest hne
    | cons t rest =>
      cases rest with
      | nil =>
        have ht : t.kind = .ident name := by rw [← hkind, State.head, hrest]
        refine absurd ?_ h
        rw [if_neg (by rw [State.second?, hrest]; exact nofun)]
        exact valued_name room _ _ hrest ht
      | cons u rest =>
        rw [second?_within hrest]
        split at h
        · rename_i hequal
          rw [if_pos hequal]
          refine Local.agree (.bind .advance fun _ => .bind .advance fun _ => ?_) s _ h
          exact valued_local room _ _
        · rename_i hequal
          rw [if_neg hequal]
          exact (valued_local room _ _).agree s _ h
  | _ =>
    rw [hkind] at h
    exact (valued_local room _ _).agree s _ h
termination_by 2 * room + 1
decreasing_by all_goals omega

theorem block_local (room : Nat) : Local (block room) := by
  rw [block]
  refine .bind (.expect _ _) fun _ => .nested fun r hr => ?_
  exact .bind (statementsUntil_local _ (statement_local r)) fun _ => .bind (.expect _ _) fun _ =>
    .pure _
termination_by 2 * room
decreasing_by all_goals omega

end

/-! ## Words behind the last one -/

/-- What is read is read inside the frame too, also if it is all that was there. -/
structure Undisturbed {α : Type} (frame : Frame) (p : Parser α) : Prop extends Local p where
  same : ∀ {s t : State} {a : α}, s.finish.kind = .finish →
    p s = (some a, t) → p (s.within frame) = (some a, t.within frame)

/-- What is read ends with a word of its own. -/
structure Closes {α : Type} (frame : Frame) (p : Parser α) : Prop
    extends Undisturbed frame p where
  needs : ∀ {s : State}, s.finish.kind = .finish → (p s).1 ≠ none → s.rest ≠ []

/-- No other branch follows. -/
def NoElse (more : List Token) : Prop := ∀ u, more.head? = some u → u.kind ≠ .elseWord

section

variable {α β : Type} {frame : Frame}

namespace Undisturbed

theorem pure (a : α) : Undisturbed frame (pure a : Parser α) where
  toLocal := .pure a
  same _ h := by
    cases h
    rfl

theorem bind {p : Parser α} {f : α → Parser β} (hp : Undisturbed frame p)
    (hf : ∀ a, Undisturbed frame (f a)) : Undisturbed frame (p >>= f) where
  toLocal := .bind hp.toLocal fun a => (hf a).toLocal
  same {s t b} hfinish h := by
    rw [bind_apply] at h
    split at h
    · rename_i a u hs
      have hbehind := (hp.behind s).2
      rw [hs] at hbehind
      rw [bind_some (hp.same hfinish hs)]
      exact (hf a).same (hbehind ▸ hfinish) h
    · cases h

theorem accept_else (helse : NoElse frame.more) : Undisturbed frame (accept .elseWord) where
  toLocal := .accept _
  same {s t found} hfinish h := by
    cases hrest : s.rest with
    | nil =>
      have hno : s.head.kind ≠ .elseWord := by
        rw [State.head, hrest, hfinish]
        decide
      rw [accept_head hno] at h
      cases h
      refine accept_head ?_
      cases hmore : frame.more with
      | nil =>
        rw [State.head, State.within, hrest, hmore]
        change frame.finish.kind ≠ .elseWord
        rw [frame.marked]
        decide
      | cons u rest =>
        rw [State.head, State.within, hrest, hmore]
        exact helse u (hmore ▸ rfl)
    | cons u rest =>
      by_cases hu : u.kind = .elseWord
      · rw [accept_cons hrest hu] at h
        cases h
        exact accept_cons (within_cons hrest frame) hu
      · have hhead : s.head = u := by rw [State.head, hrest]
        rw [accept_head (hhead ▸ hu)] at h
        cases h
        refine accept_head ?_
        rwa [State.within_head (by rw [hrest]; exact List.cons_ne_nil _ _), hhead]

end Undisturbed

namespace Closes

theorem expect {kind : TokenKind} (hkind : kind ≠ .finish) (what : Expectation) :
    Closes frame (expect kind what) := by
  have hhead : ∀ {s : State}, (Parser.expect kind what s).1 ≠ none → s.head.kind = kind := by
    intro s h
    refine Decidable.byContradiction fun hno => ?_
    rw [Parser.expect, peek_bind, if_neg hno] at h
    exact h rfl
  refine ⟨⟨.expect kind what, ?_⟩, fun hfinish h => ?_⟩
  · intro s t a hfinish h
    have hs := hhead (by rw [h]; exact Option.some_ne_none _)
    obtain ⟨rest, hrest⟩ := rest_of_head hfinish (hs ▸ hkind)
    rw [expect_cons what hrest hs] at h
    cases h
    exact expect_cons what (within_cons hrest frame) hs
  · exact rest_ne_nil_of_head hfinish (hhead h ▸ hkind)

/-- Words are left in front of what closes. -/
theorem front {p : Parser α} {f : α → Parser β} (hp : Local p) (hf : ∀ a, Closes frame (f a))
    {s : State} (hfinish : s.finish.kind = .finish) (h : ((p >>= f) s).1 ≠ none) :
    (p s).2.rest ≠ [] := by
  have hbehind := (hp.behind s).2
  rw [bind_apply] at h
  cases hs : p s with | mk found u => ?_
  rw [hs] at h hbehind
  cases found with
  | none => exact absurd rfl h
  | some a => exact (hf a).needs (hbehind ▸ hfinish) h

/-- What closes comes last. -/
theorem after {p : Parser α} {f : α → Parser β} (hp : Local p) (hf : ∀ a, Closes frame (f a)) :
    Closes frame (p >>= f) := by
  refine ⟨⟨.bind hp fun a => (hf a).toLocal, ?_⟩, fun hfinish h =>
    hp.rest_ne_nil (front hp hf hfinish h)⟩
  intro s t b hfinish h
  have hne := front hp hf hfinish (by rw [h]; exact Option.some_ne_none _)
  have hagree := hp.agree s frame hne
  have hbehind := (hp.behind s).2
  rw [bind_apply] at h ⊢
  rw [hagree]
  cases hs : p s with | mk found u => ?_
  rw [hs] at h hbehind
  cases found with
  | none => cases h
  | some a => exact (hf a).same (hbehind ▸ hfinish) h

/-- Behind what closes only the words that follow are looked at. -/
theorem andThen {p : Parser α} {f : α → Parser β} (hp : Closes frame p)
    (hf : ∀ a, Undisturbed frame (f a)) : Closes frame (p >>= f) where
  toUndisturbed := hp.toUndisturbed.bind hf
  needs {s} hfinish h := by
    refine hp.needs hfinish fun hnone => h ?_
    rw [bind_apply]
    cases hs : p s with | mk found u => ?_
    rw [hs] at hnone
    cases hnone
    rfl

theorem map {p : Parser α} (hp : Closes frame p) (f : α → β) :
    Closes frame (p >>= fun a => pure (f a)) :=
  hp.andThen fun _ => .pure _

theorem nested {room : Nat} {p : (r : Nat) → r < room → Parser α}
    (h : ∀ r hr, Closes frame (p r hr)) : Closes frame (nested room p) := by
  cases room with
  | zero => exact ⟨⟨.report .tooDeep, fun _ h => nomatch h⟩, fun _ h => absurd rfl h⟩
  | succ r => exact h r (Nat.lt_succ_self r)

theorem conditional {cond : Parser Expr} {body : Parser (List Stmt)} (helse : NoElse frame.more)
    (hcond : Local cond) (hbody : Closes frame body) : Closes frame (conditional cond body) := by
  have harm : Closes frame (arm cond body) :=
    .after .advance fun _ => .after hcond fun _ => hbody.andThen fun _ =>
      (Undisturbed.accept_else helse).bind fun _ => .pure _
  refine ⟨⟨.conditional hcond hbody.toLocal, ?_⟩, fun {s} hfinish h => ?_⟩
  · intro s t stmt hfinish h
    have hmark : ∀ {s : State} {r} {t : State}, s.finish.kind = .finish →
        arm cond body s = (r, t) → t.finish.kind = .finish := by
      intro s r t hfinish hs
      have hbehind := (harm.behind s).2
      rw [hs] at hbehind
      rw [hbehind, hfinish]
    fun_induction Parser.conditional cond body s generalizing stmt t with
    | case1 | case3 | case5 | case6 => cases h
    | case2 s line c b u hs =>
      cases h
      exact conditional_plain (harm.same hfinish hs)
    | case4 s line c b u hs hif hlength other v hother ih =>
      cases h
      have hne := rest_ne_nil_of_head (hmark hfinish hs) (by rw [hif]; decide)
      refine conditional_branch (harm.same hfinish hs) ?_
        ((within_length s u frame).mpr hlength) (ih (hmark hfinish hs) hother)
      rwa [State.within_head hne]
    | case7 s line c b u hs hif stmts v hother =>
      cases h
      have hne := hbody.needs (hmark hfinish hs) (by rw [hother]; exact Option.some_ne_none _)
      rw [← State.within_head hne frame]
      refine conditional_block (harm.same hfinish hs) ?_
        (hbody.same (hmark hfinish hs) hother)
      rwa [State.within_head hne]
  · refine harm.needs hfinish fun hnone => h ?_
    rw [Parser.conditional]
    cases hs : arm cond body s with | mk found u => ?_
    rw [hs] at hnone
    cases hnone
    rfl

end Closes

theorem block_closes (room : Nat) : Closes frame (block room) := by
  rw [block]
  refine .after (.expect _ _) fun _ => .nested fun r _ => ?_
  exact .after (statementsUntil_local _ (statement_local r)) fun _ =>
    (Closes.expect (by decide) _).map _

theorem valued_closes (room : Nat) (what : Expectation) (make : Expr → Stmt) : Closes frame (do
    let e ← expression room
    expect .semicolon what
    return make e) :=
  .after (expression_local room) fun _ => (Closes.expect (by decide) _).map _

/-- A statement is not touched by what follows, if that is no other branch. -/
theorem statement_within {s t : State} {stmt : Stmt} (room : Nat)
    (frame : Frame) (helse : NoElse frame.more) (hfinish : s.finish.kind = .finish)
    (h : statement room s = (some stmt, t)) :
    statement room (s.within frame) = (some stmt, t.within frame) := by
  have hblock : Closes frame (block room) := block_closes room
  have hne : s.rest ≠ [] :=
    List.ne_nil_of_length_pos (Nat.zero_lt_of_lt (statement_passes hfinish h))
  rw [statement, peek_bind] at h ⊢
  rw [State.within_head hne]
  cases hkind : s.head.kind with
  | letWord =>
    rw [hkind] at h
    refine Undisturbed.same (Closes.after .advance fun _ => ?_).toUndisturbed hfinish h
    exact .after (.identifier _) fun _ => .after (.expect _ _) fun _ => valued_closes room _ _
  | ifWord =>
    rw [hkind] at h
    exact (Closes.conditional helse (expression_local room) hblock).same hfinish h
  | whileWord =>
    rw [hkind] at h
    refine Undisturbed.same (Closes.after .advance fun _ => ?_).toUndisturbed hfinish h
    exact .after (expression_local room) fun _ => hblock.map _
  | forWord =>
    rw [hkind] at h
    refine Undisturbed.same (Closes.after .advance fun _ => ?_).toUndisturbed hfinish h
    exact .after (.identifier _) fun _ => .after (.expect _ _) fun _ =>
      .after (expression_local room) fun _ => hblock.map _
  | checkpointWord =>
    rw [hkind] at h
    refine Undisturbed.same (Closes.after .advance fun _ => ?_).toUndisturbed hfinish h
    exact .after .checkpointName fun _ => hblock.map _
  | leftBrace =>
    rw [hkind] at h
    exact (hblock.map _).same hfinish h
  | ident name =>
    rw [hkind] at h
    simp only [second_bind] at h ⊢
    cases hrest : s.rest with
    | nil => exact absurd hrest hne
    | cons u rest =>
      cases rest with
      | nil =>
        -- a single name is no statement, whatever follows
        have hu : u.kind = .ident name := by rw [← hkind, State.head, hrest]
        rw [if_neg (by rw [State.second?, hrest]; exact nofun)] at h
        have hend : ∀ e, Closes frame (expect .semicolon .expressionEnd >>= fun _ =>
            pure (.evaluate s.head.place.line e) : Parser Stmt) :=
          fun _ => (Closes.expect (by decide) _).map _
        refine absurd (expression_name room hrest hu) ?_
        refine Closes.front (expression_local room) hend hfinish ?_
        exact h ▸ Option.some_ne_none _
      | cons v rest =>
        rw [second?_within hrest]
        split at h
        · rename_i hequal
          rw [if_pos hequal]
          refine Undisturbed.same (Closes.after .advance fun _ => ?_).toUndisturbed hfinish h
          exact .after .advance fun _ => valued_closes room _ _
        · rename_i hequal
          rw [if_neg hequal]
          exact (valued_closes room _ _).same hfinish h
  | _ =>
    rw [hkind] at h
    exact (valued_closes room _ _).same hfinish h

end

end Parser
end Script
end CheckScript
