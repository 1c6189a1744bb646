/-
Scripts that are written and read back.

The words of a tree, wherever they stand, are derived by the grammar as the same tree, places
apart; a part between parentheses may stand in any place, a part without them in the places
that its level allows.
-/
import CheckScript.Proofs.Script.Completeness
import CheckScript.Proofs.Script.Written

namespace CheckScript
namespace Script

/-! ## Trees without places -/

mutual

def Expr.unplaced : Expr → Expr
  | .int _ n => .int .start n
  | .str _ s => .str .start s
  | .bool _ b => .bool .start b
  | .null _ => .null .start
  | .list _ items => .list .start (unplacedItems items)
  | .ident _ name => .ident .start name
  | .unary _ op operand => .unary .start op operand.unplaced
  | .binary _ op left right => .binary .start op left.unplaced right.unplaced
  | .field _ object name => .field .start object.unplaced name
  | .index _ object index => .index .start object.unplaced index.unplaced
  | .call _ function args => .call .start function (unplacedItems args)
  | .method _ object name args => .method .start object.unplaced name (unplacedItems args)

def unplacedItems : List Expr → List Expr
  | [] => []
  | e :: es => e.unplaced :: unplacedItems es

end

mutual

def Stmt.unplaced : Stmt → Stmt
  | .declare _ name value => .declare 0 name value.unplaced
  | .assign _ name value => .assign 0 name value.unplaced
  | .evaluate _ e => .evaluate 0 e.unplaced
  | .branch _ cond body other =>
    .branch 0 cond.unplaced (unplacedStmts body) (unplacedOther other)
  | .loop _ cond body => .loop 0 cond.unplaced (unplacedStmts body)
  | .each _ name items body => .each 0 name items.unplaced (unplacedStmts body)
  | .block _ body => .block 0 (unplacedStmts body)
  | .checkpoint _ name body => .checkpoint 0 name (unplacedStmts body)

def unplacedStmts : List Stmt → List Stmt
  | [] => []
  | s :: ss => s.unplaced :: unplacedStmts ss

def unplacedOther : Option Stmt → Option Stmt
  | none => none
  | some s => some s.unplaced

end

def Program.unplaced (p : Program) : Program := ⟨unplacedStmts p.stmts⟩

/-! ## Places make no difference to the words -/

theorem Expr.level_unplaced (e : Expr) : e.unplaced.level = e.level := by
  cases e <;> rfl

mutual

theorem Expr.words_unplaced (e : Expr) : e.unplaced.words = e.words := by
  match e with
  | .int _ _ | .str _ _ | .bool _ _ | .null _ | .ident _ _ => rfl
  | .list _ items =>
    rw [Expr.unplaced, Expr.words, Expr.words, itemWords_unplaced items]
  | .unary _ op operand =>
    rw [Expr.unplaced, Expr.words, Expr.words, operand.level_unplaced, operand.words_unplaced]
  | .binary _ op left right =>
    rw [Expr.unplaced, Expr.words, Expr.words, left.level_unplaced, left.words_unplaced,
      right.level_unplaced, right.words_unplaced]
  | .field _ object name =>
    rw [Expr.unplaced, Expr.words, Expr.words, object.level_unplaced, object.words_unplaced]
  | .index _ object index =>
    rw [Expr.unplaced, Expr.words, Expr.words, object.level_unplaced, object.words_unplaced,
      index.words_unplaced]
  | .call _ function args =>
    rw [Expr.unplaced, Expr.words, Expr.words, itemWords_unplaced args]
  | .method _ object name args =>
    rw [Expr.unplaced, Expr.words, Expr.words, object.level_unplaced, object.words_unplaced,
      itemWords_unplaced args]

theorem itemWords_unplaced (es : List Expr) : itemWords (unplacedItems es) = itemWords es := by
  match es with
  | [] => rfl
  | e :: es =>
    have hempty : (unplacedItems es).isEmpty = es.isEmpty := by cases es <;> rfl
    rw [unplacedItems, itemWords, itemWords, e.words_unplaced, hempty, itemWords_unplaced es]

end

mutual

theorem Stmt.words_unplaced (s : Stmt) : s.unplaced.words = s.words := by
  match s with
  | .declare _ name value | .assign _ name value =>
    rw [Stmt.unplaced, Stmt.words, Stmt.words, value.words_unplaced]
  | .evaluate _ e => rw [Stmt.unplaced, Stmt.words, Stmt.words, e.words_unplaced]
  | .branch _ cond body other =>
    rw [Stmt.unplaced, Stmt.words, Stmt.words, cond.words_unplaced, stmtWords_unplaced body,
      otherWords_unplaced other]
  | .loop _ cond body =>
    rw [Stmt.unplaced, Stmt.words, Stmt.words, cond.words_unplaced, stmtWords_unplaced body]
  | .each _ name items body =>
    rw [Stmt.unplaced, Stmt.words, Stmt.words, items.words_unplaced, stmtWords_unplaced body]
  | .block _ body | .checkpoint _ _ body =>
    rw [Stmt.unplaced, Stmt.words, Stmt.words, stmtWords_unplaced body]

theorem stmtWords_unplaced (ss : List Stmt) : stmtWords (unplacedStmts ss) = stmtWords ss := by
  match ss with
  | [] => rfl
  | s :: ss => rw [unplacedStmts, stmtWords, stmtWords, s.words_unplaced, stmtWords_unplaced ss]

theorem otherWords_unplaced (other : Option Stmt) :
    otherWords (unplacedOther other) = otherWords other := by
  match other with
  | none => rfl
  | some s => rw [unplacedOther, otherWords, otherWords, s.words_unplaced]

end

theorem Program.words_unplaced (p : Program) : p.unplaced.words = p.words :=
  stmtWords_unplaced p.stmts

/-! ## The words of an expression are a derivation -/

namespace Grammar

/-- The words can be an operand of an operator of level `k`, of a sign if `k` is 7 and in front
of an access if `k` is 8. -/
structure Binds (k : Nat) (ts : List Token) (e : Expr) : Prop where
  expression : Expression k ts e
  operand : 7 ≤ k → Operand ts e
  accessed : 8 ≤ k → Accessed ts e

namespace Binds

variable {k : Nat} {ts : List Token} {e : Expr}

theorem of_accessed (h : Accessed ts e) : Binds k ts e :=
  ⟨.operand (.plain h), fun _ => .plain h, fun _ => h⟩

theorem of_operand (h : Operand ts e) (hk : k ≤ 7) : Binds k ts e :=
  ⟨.operand h, fun _ => h, fun h => absurd (Nat.le_trans h hk) (by decide)⟩

theorem of_expression (h : Expression k ts e) (hk : k ≤ 6) : Binds k ts e :=
  ⟨h, fun h => absurd (Nat.le_trans h hk) (by decide),
    fun h => absurd (Nat.le_trans h hk) (by decide)⟩

theorem mono {l : Nat} (h : Binds k ts e) (hl : l ≤ k) : Binds l ts e :=
  ⟨h.expression.mono hl, fun hk => h.operand (Nat.le_trans hk hl),
    fun hk => h.accessed (Nat.le_trans hk hl)⟩

end Binds

theorem snoc_of_map {ts : List Token} {words : List TokenKind} {k : TokenKind}
    (h : ts.map Token.kind = words ++ [k]) :
    ∃ us last, ts = us ++ [last] ∧ us.map Token.kind = words ∧ last.kind = k := by
  obtain ⟨us, _, rfl, hus, hlast⟩ := List.map_eq_append_iff.mp h
  obtain ⟨last, rfl, hkind⟩ := List.map_eq_singleton_iff.mp hlast
  exact ⟨us, last, rfl, hus, hkind⟩

theorem bracketed_of_map {ts : List Token} {words : List TokenKind} {k l : TokenKind}
    (h : ts.map Token.kind = k :: (words ++ [l])) :
    ∃ left us right, ts = left :: (us ++ [right]) ∧ left.kind = k ∧ us.map Token.kind = words ∧
      right.kind = l := by
  obtain ⟨left, _, rfl, hleft, hus⟩ := List.map_eq_cons_iff.mp h
  obtain ⟨us, right, rfl, hus, hright⟩ := snoc_of_map hus
  exact ⟨left, us, right, rfl, hleft, hus, hright⟩

/-- Tokens of these words are derived as `e` where level `k` is asked for, places apart. -/
def Derivable (k : Nat) (words : List TokenKind) (e : Expr) : Prop :=
  ∀ ts : List Token, ts.map Token.kind = words →
    ∃ e', e'.unplaced = e.unplaced ∧ Binds k ts e'

namespace Derivable

variable {e : Expr}

theorem expression (h : Derivable e.level e.words e) {ts : List Token}
    (hts : ts.map Token.kind = e.words) : ∃ e', e'.unplaced = e.unplaced ∧ Expression 1 ts e' := by
  obtain ⟨e', he', hbinds⟩ := h ts hts
  exact ⟨e', he', hbinds.expression.mono e.level_pos⟩

theorem grouped (h : Derivable e.level e.words e) (min : Nat) :
    Derivable min (grouped min e.level e.words) e := by
  intro ts hts
  unfold Script.grouped at hts
  split at hts
  · -- parentheses make a primary of it, which may stand anywhere
    obtain ⟨left, us, right, rfl, hleft, hus, hright⟩ := bracketed_of_map hts
    obtain ⟨e', he', hexpression⟩ := h.expression hus
    exact ⟨e', he', .of_accessed (.plain (.group hleft hexpression hright))⟩
  · rename_i hlevel
    obtain ⟨e', he', hbinds⟩ := h ts hts
    exact ⟨e', he', hbinds.mono (Nat.le_of_not_lt hlevel)⟩

/-- A word alone. -/
theorem word {k : TokenKind} (e' : Position → Expr) (he' : ∀ p, (e' p).unplaced = e.unplaced)
    (h : ∀ t : Token, t.kind = k → Primary [t] (e' t.place)) (level : Nat) :
    Derivable level [k] e := by
  intro ts hts
  obtain ⟨t, rfl, ht⟩ := List.map_eq_singleton_iff.mp hts
  exact ⟨e' t.place, he' _, .of_accessed (.plain (h t ht))⟩

end Derivable

mutual

theorem derivable (e : Expr) (h : e.writable = true) : Derivable e.level e.words e := by
  match e with
  | .int p n =>
    rw [Expr.writable, Bool.and_eq_true, decide_eq_true_eq] at h
    have hn : ((n.toNat : Nat) : Int) = n := Int.toNat_of_nonneg h.1
    exact .word (.int · n.toNat) (fun _ => by rw [hn]; rfl) (fun _ => .int) 8
  | .str _ s => exact .word (.str · s) (fun _ => rfl) (fun _ => .str) 8
  | .bool _ true => exact .word (.bool · true) (fun _ => rfl) (fun _ => .yes) 8
  | .bool _ false => exact .word (.bool · false) (fun _ => rfl) (fun _ => .no) 8
  | .null _ => exact .word .null (fun _ => rfl) (fun _ => .null) 8
  | .ident _ name => exact .word (.ident · name) (fun _ => rfl) (fun _ => .ident) 8
  | .list p items =>
    intro ts hts
    obtain ⟨left, us, right, rfl, hleft, hus, hright⟩ := bracketed_of_map hts
    obtain ⟨items', hitems', hderived, -⟩ := items_derivable items h hus
    refine ⟨.list left.place items', ?_, .of_accessed (.plain (.list hleft hderived hright))⟩
    rw [Expr.unplaced, hitems', Expr.unplaced]
  | .unary p op operand =>
    intro ts hts
    obtain ⟨t, us, rfl, ht, hus⟩ := List.map_eq_cons_iff.mp hts
    obtain ⟨operand', hoperand', hbinds⟩ := (derivable operand h).grouped 7 us hus
    refine ⟨.unary t.place op operand', ?_, .of_operand (.signed ht ?_) (Nat.le_refl 7)⟩
    · rw [Expr.unplaced, hoperand', Expr.unplaced]
    · exact hbinds.operand (Nat.le_refl 7)
  | .binary p op left right =>
    rw [Expr.writable, Bool.and_eq_true] at h
    intro ts hts
    obtain ⟨ls, _, rfl, hls, hts⟩ := List.map_eq_append_iff.mp hts
    obtain ⟨t, rs, rfl, ht, hrs⟩ := List.map_eq_cons_iff.mp hts
    obtain ⟨left', hleft', hl⟩ := (derivable left h.1).grouped op.level ls hls
    obtain ⟨right', hright', hr⟩ := (derivable right h.2).grouped (op.level + 1) rs hrs
    refine ⟨.binary t.place op left' right', ?_, .of_expression ?_ op.level_le⟩
    · rw [Expr.unplaced, hleft', hright', Expr.unplaced]
    · exact .binary ht (Nat.le_refl _) hl.expression hr.expression
  | .field p object name =>
    rw [Expr.writable, Bool.and_eq_true] at h
    intro ts hts
    obtain ⟨ls, _, rfl, hls, hts⟩ := List.map_eq_append_iff.mp hts
    obtain ⟨dot, _, rfl, hdot, hts⟩ := List.map_eq_cons_iff.mp hts
    obtain ⟨t, rfl, ht⟩ := List.map_eq_singleton_iff.mp hts
    obtain ⟨object', hobject', hbinds⟩ := (derivable object h.1).grouped 8 ls hls
    have haccessed := hbinds.accessed (Nat.le_refl 8)
    refine ⟨.field dot.place object' name, ?_, .of_accessed (.field haccessed hdot ht)⟩
    rw [Expr.unplaced, hobject', Expr.unplaced]
  | .index p object index =>
    rw [Expr.writable, Bool.and_eq_true] at h
    intro ts hts
    obtain ⟨ls, _, rfl, hls, hts⟩ := List.map_eq_append_iff.mp hts
    obtain ⟨left, us, right, rfl, hleft, hus, hright⟩ := bracketed_of_map hts
    obtain ⟨object', hobject', hbinds⟩ := (derivable object h.1).grouped 8 ls hls
    obtain ⟨index', hindex', hindex⟩ := (derivable index h.2).expression hus
    have haccessed := hbinds.accessed (Nat.le_refl 8)
    refine ⟨.index left.place object' index', ?_, .of_accessed ?_⟩
    · rw [Expr.unplaced, hobject', hindex', Expr.unplaced]
    · exact .index haccessed hleft hindex hright
  | .call p function args =>
    rw [Expr.writable, Bool.and_eq_true] at h
    intro ts hts
    obtain ⟨t, _, rfl, ht, hts⟩ := List.map_eq_cons_iff.mp hts
    obtain ⟨left, us, right, rfl, hleft, hus, hright⟩ := bracketed_of_map hts
    obtain ⟨args', hargs', hderived, -⟩ := items_derivable args h.2 hus
    have hcallee : Accessed [t] (.ident t.place function) := .plain (.ident ht)
    refine ⟨.call t.place function args', ?_, .of_accessed (.call hcallee hleft hderived hright)⟩
    rw [Expr.unplaced, hargs', Expr.unplaced]
  | .method p object name args =>
    rw [Expr.writable, Bool.and_eq_true, Bool.and_eq_true] at h
    intro ts hts
    obtain ⟨ls, _, rfl, hls, hts⟩ := List.map_eq_append_iff.mp hts
    obtain ⟨dot, _, rfl, hdot, hts⟩ := List.map_eq_cons_iff.mp hts
    obtain ⟨t, _, rfl, ht, hts⟩ := List.map_eq_cons_iff.mp hts
    obtain ⟨left, us, right, rfl, hleft, hus, hright⟩ := bracketed_of_map hts
    obtain ⟨object', hobject', hbinds⟩ := (derivable object h.1.1).grouped 8 ls hls
    obtain ⟨args', hargs', hderived, -⟩ := items_derivable args h.2 hus
    have haccessed := hbinds.accessed (Nat.le_refl 8)
    refine ⟨.method dot.place object' name args', ?_, .of_accessed ?_⟩
    · rw [Expr.unplaced, hobject', hargs', Expr.unplaced]
    · exact .method haccessed hdot ht hleft hderived hright

theorem items_derivable (es : List Expr) (h : itemsWritable es = true) {ts : List Token}
    (hts : ts.map Token.kind = itemWords es) :
    ∃ es', unplacedItems es' = unplacedItems es ∧ Items ts es' ∧ (es ≠ [] → Several ts es') := by
  match es with
  | [] =>
    obtain rfl := List.map_eq_nil_iff.mp hts
    exact ⟨[], rfl, .none, fun h => absurd rfl h⟩
  | e :: es =>
    rw [itemsWritable, Bool.and_eq_true] at h
    rw [itemWords] at hts
    obtain ⟨us, vs, rfl, hus, hvs⟩ := List.map_eq_append_iff.mp hts
    obtain ⟨e', he', hexpression⟩ := (derivable e h.1).expression hus
    split at hvs
    · rename_i hempty
      obtain rfl := List.isEmpty_iff.mp hempty
      obtain rfl := List.map_eq_nil_iff.mp hvs
      rw [List.append_nil]
      have hone := Several.one hexpression
      exact ⟨[e'], by rw [unplacedItems, he', unplacedItems]; rfl, .some hone, fun _ => hone⟩
    · rename_i hempty
      obtain ⟨comma, vs, rfl, hcomma, hvs⟩ := List.map_eq_cons_iff.mp hvs
      obtain ⟨es', hes', -, hseveral⟩ := items_derivable es h.2 hvs
      have hmore := Several.more hexpression hcomma (hseveral fun h => hempty (h ▸ rfl))
      exact ⟨e' :: es', by rw [unplacedItems, he', hes', unplacedItems], .some hmore,
        fun _ => hmore⟩

end

/-! ## The words of a script are a derivation -/

theorem block_of_stmts {body : List Stmt}
    (h : ∀ us : List Token, us.map Token.kind = stmtWords body →
      ∃ body', unplacedStmts body' = unplacedStmts body ∧ Statements us body') {ts : List Token}
    (hts : ts.map Token.kind = braced (stmtWords body)) :
    ∃ body', unplacedStmts body' = unplacedStmts body ∧ Block ts body' := by
  obtain ⟨left, us, right, rfl, hleft, hus, hright⟩ := bracketed_of_map hts
  obtain ⟨body', hbody', hstatements⟩ := h us hus
  exact ⟨body', hbody', .braces hleft hstatements hright⟩

mutual

theorem stmt_derivable (s : Stmt) (h : s.writable = true) {ts : List Token}
    (hts : ts.map Token.kind = s.words) :
    ∃ s', s'.unplaced = s.unplaced ∧ Statement ts s' ∧ (s.isOther = true → Other ts s') := by
  match s with
  | .declare _ name value =>
    rw [Stmt.writable, Bool.and_eq_true] at h
    obtain ⟨first, _, rfl, hfirst, hts⟩ := List.map_eq_cons_iff.mp hts
    obtain ⟨t, _, rfl, ht, hts⟩ := List.map_eq_cons_iff.mp hts
    obtain ⟨equal, _, rfl, hequal, hts⟩ := List.map_eq_cons_iff.mp hts
    obtain ⟨us, last, rfl, hus, hlast⟩ := snoc_of_map hts
    obtain ⟨value', hvalue', hexpression⟩ := (derivable value h.2).expression hus
    refine ⟨.declare first.place.line name value', ?_, ?_, nofun⟩
    · rw [Stmt.unplaced, hvalue', Stmt.unplaced]
    · exact .declare hfirst ht hequal hexpression hlast
  | .assign _ name value =>
    rw [Stmt.writable, Bool.and_eq_true] at h
    obtain ⟨t, _, rfl, ht, hts⟩ := List.map_eq_cons_iff.mp hts
    obtain ⟨equal, _, rfl, hequal, hts⟩ := List.map_eq_cons_iff.mp hts
    obtain ⟨us, last, rfl, hus, hlast⟩ := snoc_of_map hts
    obtain ⟨value', hvalue', hexpression⟩ := (derivable value h.2).expression hus
    refine ⟨.assign t.place.line name value', ?_, .assign ht hequal hexpression hlast, nofun⟩
    rw [Stmt.unplaced, hvalue', Stmt.unplaced]
  | .evaluate _ e =>
    obtain ⟨us, last, rfl, hus, hlast⟩ := snoc_of_map hts
    obtain ⟨e', he', hexpression⟩ := (derivable e h).expression hus
    obtain ⟨t, us, rfl, -⟩ := hexpression.begins
    refine ⟨.evaluate t.place.line e', ?_, .evaluate hexpression hlast, nofun⟩
    rw [Stmt.unplaced, he', Stmt.unplaced]
  | .branch _ cond body other =>
    rw [Stmt.writable, Bool.and_eq_true, Bool.and_eq_true] at h
    obtain ⟨first, _, rfl, hfirst, hts⟩ := List.map_eq_cons_iff.mp hts
    obtain ⟨_, ws, rfl, hts, hws⟩ := List.map_eq_append_iff.mp hts
    obtain ⟨us, vs, rfl, hus, hvs⟩ := List.map_eq_append_iff.mp hts
    obtain ⟨cond', hcond', hexpression⟩ := (derivable cond h.1.1).expression hus
    obtain ⟨body', hbody', hblock⟩ := block_of_stmts (fun _ => stmts_derivable body h.1.2) hvs
    obtain ⟨other', hother', hconditional⟩ := other_derivable other h.2 hws
    have hbranch := hconditional hfirst hexpression hblock
    refine ⟨.branch first.place.line cond' body' other', ?_, .branch hbranch,
      fun _ => .branch hbranch⟩
    rw [Stmt.unplaced, hcond', hbody', hother', Stmt.unplaced]
  | .loop _ cond body =>
    rw [Stmt.writable, Bool.and_eq_true] at h
    obtain ⟨first, _, rfl, hfirst, hts⟩ := List.map_eq_cons_iff.mp hts
    obtain ⟨us, vs, rfl, hus, hvs⟩ := List.map_eq_append_iff.mp hts
    obtain ⟨cond', hcond', hexpression⟩ := (derivable cond h.1).expression hus
    obtain ⟨body', hbody', hblock⟩ := block_of_stmts (fun _ => stmts_derivable body h.2) hvs
    refine ⟨.loop first.place.line cond' body', ?_, .loop hfirst hexpression hblock, nofun⟩
    rw [Stmt.unplaced, hcond', hbody', Stmt.unplaced]
  | .each _ name items body =>
    rw [Stmt.writable, Bool.and_eq_true, Bool.and_eq_true] at h
    obtain ⟨first, _, rfl, hfirst, hts⟩ := List.map_eq_cons_iff.mp hts
    obtain ⟨t, _, rfl, ht, hts⟩ := List.map_eq_cons_iff.mp hts
    obtain ⟨inWord, _, rfl, hin, hts⟩ := List.map_eq_cons_iff.mp hts
    obtain ⟨us, vs, rfl, hus, hvs⟩ := List.map_eq_append_iff.mp hts
    obtain ⟨items', hitems', hexpression⟩ := (derivable items h.1.2).expression hus
    obtain ⟨body', hbody', hblock⟩ := block_of_stmts (fun _ => stmts_derivable body h.2) hvs
    refine ⟨.each first.place.line name items' body', ?_, ?_, nofun⟩
    · rw [Stmt.unplaced, hitems', hbody', Stmt.unplaced]
    · exact .each hfirst ht hin hexpression hblock
  | .block _ body =>
    obtain ⟨body', hbody', hblock⟩ := block_of_stmts (fun _ => stmts_derivable body h) hts
    obtain ⟨t, us, rfl, -⟩ := hblock.begins
    refine ⟨.block t.place.line body', ?_, .block hblock, fun _ => .block hblock⟩
    rw [Stmt.unplaced, hbody', Stmt.unplaced]
  | .checkpoint _ name body =>
    obtain ⟨first, _, rfl, hfirst, hts⟩ := List.map_eq_cons_iff.mp hts
    obtain ⟨t, us, rfl, ht, hus⟩ := List.map_eq_cons_iff.mp hts
    obtain ⟨body', hbody', hblock⟩ := block_of_stmts (fun _ => stmts_derivable body h) hus
    refine ⟨.checkpoint first.place.line name body', ?_, .checkpoint hfirst ht hblock, nofun⟩
    rw [Stmt.unplaced, hbody', Stmt.unplaced]

theorem stmts_derivable (ss : List Stmt) (h : stmtsWritable ss = true) {ts : List Token}
    (hts : ts.map Token.kind = stmtWords ss) :
    ∃ ss', unplacedStmts ss' = unplacedStmts ss ∧ Statements ts ss' := by
  match ss with
  | [] =>
    obtain rfl := List.map_eq_nil_iff.mp hts
    exact ⟨[], rfl, .nil⟩
  | s :: ss =>
    rw [stmtsWritable, Bool.and_eq_true] at h
    obtain ⟨us, vs, rfl, hus, hvs⟩ := List.map_eq_append_iff.mp hts
    obtain ⟨s', hs', hstatement, -⟩ := stmt_derivable s h.1 hus
    obtain ⟨ss', hss', hstatements⟩ := stmts_derivable ss h.2 hvs
    exact ⟨s' :: ss', by rw [unplacedStmts, hs', hss', unplacedStmts], .cons hstatement hstatements⟩

theorem other_derivable (other : Option Stmt) (h : otherWritable other = true) {ts : List Token}
    (hts : ts.map Token.kind = otherWords other) :
    ∃ other', unplacedOther other' = unplacedOther other ∧
      ∀ {first : Token} {us vs : List Token} {cond : Expr} {body : List Stmt},
        first.kind = .ifWord → Expression 1 us cond → Block vs body →
          Conditional (first :: (us ++ vs ++ ts)) (.branch first.place.line cond body other') := by
  match other with
  | none =>
    obtain rfl := List.map_eq_nil_iff.mp hts
    refine ⟨none, rfl, fun hfirst hcond hbody => ?_⟩
    rw [List.append_nil]
    exact .plain hfirst hcond hbody
  | some s =>
    rw [otherWritable, Bool.and_eq_true] at h
    obtain ⟨elseWord, us, rfl, helse, hus⟩ := List.map_eq_cons_iff.mp hts
    obtain ⟨s', hs', -, hother⟩ := stmt_derivable s h.2 hus
    refine ⟨some s', by rw [unplacedOther, hs', unplacedOther], fun hfirst hcond hbody => ?_⟩
    exact .otherwise hfirst hcond hbody helse (hother h.1)

end

end Grammar

/-- Places apart, the words of a tree are derived as that tree, whatever places they have. -/
theorem derives_words {p : Program} (h : p.writable = true) {tokens : List Token}
    (htokens : tokens.map Token.kind = p.words) :
    ∃ p', p'.unplaced = p.unplaced ∧ Grammar.Derives tokens p' := by
  obtain ⟨ss, hss, hstatements⟩ := Grammar.stmts_derivable p.stmts h htokens
  exact ⟨⟨ss⟩, congrArg Program.mk hss, hstatements⟩

theorem not_finish_of_spellable {k : TokenKind} (h : k.spellable = true) : k ≠ .finish := by
  rintro rfl
  cases h

/-- What is written for a tree is read as that tree, places apart, unless it is too deep for
the parser; and nothing with fewer parentheses could be read as that tree. -/
theorem parse_text {p : Program} (hp : p.writable = true)
    (hdeep : ¬∃ d ∈ (parse (tokenize p.text).1).2, d.IsTooDeep) :
    (tokenize p.text).2 = [] ∧ (parse (tokenize p.text).1).2 = [] ∧
      (parse (tokenize p.text).1).1.unplaced = p.unplaced ∧
      ∀ tokens p', Grammar.Derives tokens p' → p'.unplaced = p.unplaced →
        parens p.words ≤ parens (tokens.map Token.kind) := by
  have hspellable : ∀ k ∈ p.words, k.spellable = true :=
    List.all_eq_true.mp (stmtWords_spellable p.stmts hp)
  obtain ⟨tokens, finish, hkinds, hfinish, htokenize⟩ := tokenize_spelled hspellable
  have htokens : ∀ t ∈ tokens, t.kind ≠ .finish := fun t ht =>
    not_finish_of_spellable (hspellable t.kind (hkinds ▸ List.mem_map_of_mem ht))
  obtain ⟨p', hp', hderives⟩ := derives_words hp hkinds
  rw [Program.text, htokenize] at hdeep ⊢
  rw [parse_of_derives htokens hfinish hderives hdeep]
  refine ⟨rfl, rfl, hp', fun tokens' q hq hsame => ?_⟩
  rw [← p.words_unplaced, ← hsame, q.words_unplaced]
  exact parens_words_le hq

/-- A condition with operators of three kinds, an escaped string and an empty other branch. -/
def written : Program :=
  ⟨[.branch 1
    (.binary .start .lt
      (.binary .start .sub (.ident .start "a")
        (.binary .start .sub (.ident .start "b") (.ident .start "c")))
      (.unary .start .negate (.int .start 1)))
    [.evaluate 1 (.method .start (.ident .start "d") "e" [.str .start "\n"])]
    (some (.block 1 []))]⟩

theorem parse_text_written :
    written.writable = true ∧ (¬∃ d ∈ (parse (tokenize written.text).1).2, d.IsTooDeep) ∧
      (parse (tokenize written.text).1).1.unplaced = written.unplaced := by
  have hwritable : written.writable = true := by decide +kernel
  have hreports : (parse (tokenize written.text).1).2 = [] := by decide +kernel
  have hdeep : ¬∃ d ∈ (parse (tokenize written.text).1).2, d.IsTooDeep := by
    rw [hreports]
    rintro ⟨d, hd, -⟩
    cases hd
  exact ⟨hwritable, hdeep, (parse_text hwritable hdeep).2.2.1⟩

end Script
end CheckScript
