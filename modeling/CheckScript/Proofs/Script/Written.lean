/-
Scripts written from their trees.

`Program.words` puts an operand between parentheses only where it would not be read as that
operand without them.  No other words that stand for the tree have fewer parentheses
(`parens_words_le`): a derivation in the grammar has to have one wherever `grouped` writes one.
-/
import CheckScript.Proofs.Script.Grammar
import CheckScript.Proofs.Script.Spelling

namespace CheckScript
namespace Script

/-! ## Words of a tree -/

/-- How close an expression binds what stands at its ends: as its operator does, a sign closer
than every operator, everything else closest. -/
def Expr.level : Expr → Nat
  | .binary _ op _ _ => op.level
  | .unary .. => 7
  | .int .. | .str .. | .bool .. | .null _ | .list .. | .ident .. | .field .. | .index ..
  | .call .. | .method .. => 8

theorem Expr.level_pos (e : Expr) : 1 ≤ e.level := by
  cases e with
  | binary _ op => exact op.level_pos
  | unary => exact Nat.succ_pos 6
  | _ => exact Nat.succ_pos 7

/-- The words of an expression of level `level` where it has to be of level `min`. -/
def grouped (min level : Nat) (words : List TokenKind) : List TokenKind :=
  if level < min then .leftParen :: (words ++ [.rightParen]) else words

mutual

def Expr.words : Expr → List TokenKind
  | .int _ n => [.int n.toNat]
  | .str _ s => [.str s]
  | .bool _ b => [if b then .trueWord else .falseWord]
  | .null _ => [.nullWord]
  | .list _ items => .leftBracket :: (itemWords items ++ [.rightBracket])
  | .ident _ name => [.ident name]
  | .unary _ op operand => op.word :: grouped 7 operand.level operand.words
  | .binary _ op left right =>
    grouped op.level left.level left.words ++
      op.word :: grouped (op.level + 1) right.level right.words
  | .field _ object name => grouped 8 object.level object.words ++ [.dot, .ident name]
  | .index _ object index =>
    grouped 8 object.level object.words ++ .leftBracket :: (index.words ++ [.rightBracket])
  | .call _ function args =>
    .ident function :: .leftParen :: (itemWords args ++ [.rightParen])
  | .method _ object name args =>
    grouped 8 object.level object.words ++
      .dot :: .ident name :: .leftParen :: (itemWords args ++ [.rightParen])

def itemWords : List Expr → List TokenKind
  | [] => []
  | e :: es => e.words ++ if es.isEmpty then [] else .comma :: itemWords es

end

def braced (words : List TokenKind) : List TokenKind := .leftBrace :: (words ++ [.rightBrace])

mutual

def Stmt.words : Stmt → List TokenKind
  | .declare _ name value =>
    .letWord :: .ident name :: .equal :: (value.words ++ [.semicolon])
  | .assign _ name value => .ident name :: .equal :: (value.words ++ [.semicolon])
  | .evaluate _ e => e.words ++ [.semicolon]
  | .branch _ cond body other =>
    .ifWord :: (cond.words ++ braced (stmtWords body) ++ otherWords other)
  | .loop _ cond body => .whileWord :: (cond.words ++ braced (stmtWords body))
  | .each _ name items body =>
    .forWord :: .ident name :: .inWord :: (items.words ++ braced (stmtWords body))
  | .block _ body => braced (stmtWords body)
  | .checkpoint _ name body => .checkpointWord :: .str name :: braced (stmtWords body)

def stmtWords : List Stmt → List TokenKind
  | [] => []
  | s :: ss => s.words ++ stmtWords ss

def otherWords : Option Stmt → List TokenKind
  | none => []
  | some s => .elseWord :: s.words

end

namespace Program

def words (p : Program) : List TokenKind := stmtWords p.stmts

def text (p : Program) : String := String.ofList (spelled p.words)

end Program

/-! ## Trees that can be written -/

/-- A condition or a block, which are what can stand behind an `else`. -/
def Stmt.isOther : Stmt → Bool
  | .branch .. | .block .. => true
  | _ => false

mutual

def Expr.writable : Expr → Bool
  | .int _ n => 0 ≤ n && Integer.fits n
  | .str .. | .bool .. | .null _ => true
  | .list _ items => itemsWritable items
  | .ident _ name => isName name
  | .unary _ _ operand => operand.writable
  | .binary _ _ left right => left.writable && right.writable
  | .field _ object name => object.writable && isName name
  | .index _ object index => object.writable && index.writable
  | .call _ function args => isName function && itemsWritable args
  | .method _ object name args => object.writable && isName name && itemsWritable args

def itemsWritable : List Expr → Bool
  | [] => true
  | e :: es => e.writable && itemsWritable es

end

mutual

def Stmt.writable : Stmt → Bool
  | .declare _ name value | .assign _ name value => isName name && value.writable
  | .evaluate _ e => e.writable
  | .branch _ cond body other => cond.writable && stmtsWritable body && otherWritable other
  | .loop _ cond body => cond.writable && stmtsWritable body
  | .each _ name items body => isName name && items.writable && stmtsWritable body
  | .block _ body | .checkpoint _ _ body => stmtsWritable body

def stmtsWritable : List Stmt → Bool
  | [] => true
  | s :: ss => s.writable && stmtsWritable ss

def otherWritable : Option Stmt → Bool
  | none => true
  | some s => s.isOther && s.writable

end

/-- Numbers are not negative, names are names, and other branches are conditions or blocks. -/
def Program.writable (p : Program) : Bool := stmtsWritable p.stmts

theorem grouped_spellable (min level : Nat) (words : List TokenKind) :
    (grouped min level words).all TokenKind.spellable = words.all TokenKind.spellable := by
  unfold grouped
  split
  · simp [TokenKind.spellable]
  · rfl

theorem braced_spellable (words : List TokenKind) :
    (braced words).all TokenKind.spellable = words.all TokenKind.spellable := by
  simp [braced, TokenKind.spellable]

theorem UnaryOp.word_spellable (op : UnaryOp) : op.word.spellable = true := by cases op <;> rfl

theorem BinaryOp.word_spellable (op : BinaryOp) : op.word.spellable = true := by cases op <;> rfl

mutual

theorem Expr.words_spellable (e : Expr) (h : e.writable = true) :
    e.words.all TokenKind.spellable = true := by
  match e with
  | .int _ n =>
    simp only [Expr.writable, Bool.and_eq_true, decide_eq_true_eq] at h
    simp [Expr.words, TokenKind.spellable, Int.toNat_of_nonneg h.1, h.2]
  | .str _ s | .null _ => rfl
  | .bool _ b => cases b <;> rfl
  | .list _ items =>
    have hitems := itemWords_spellable items h
    simp [Expr.words, TokenKind.spellable, hitems]
  | .ident _ name =>
    rw [Expr.writable] at h
    simp [Expr.words, TokenKind.spellable, h]
  | .unary _ op operand =>
    have hoperand := operand.words_spellable h
    simp [Expr.words, grouped_spellable, UnaryOp.word_spellable, hoperand]
  | .binary _ op left right =>
    rw [Expr.writable, Bool.and_eq_true] at h
    have hleft := left.words_spellable h.1
    have hright := right.words_spellable h.2
    simp [Expr.words, grouped_spellable, BinaryOp.word_spellable, hleft, hright]
  | .field _ object name =>
    rw [Expr.writable, Bool.and_eq_true] at h
    have hobject := object.words_spellable h.1
    simp [Expr.words, grouped_spellable, TokenKind.spellable, hobject, h.2]
  | .index _ object index =>
    rw [Expr.writable, Bool.and_eq_true] at h
    have hobject := object.words_spellable h.1
    have hindex := index.words_spellable h.2
    simp [Expr.words, grouped_spellable, TokenKind.spellable, hobject, hindex]
  | .call _ function args =>
    rw [Expr.writable, Bool.and_eq_true] at h
    have hargs := itemWords_spellable args h.2
    simp [Expr.words, TokenKind.spellable, hargs, h.1]
  | .method _ object name args =>
    rw [Expr.writable, Bool.and_eq_true, Bool.and_eq_true] at h
    have hobject := object.words_spellable h.1.1
    have hargs := itemWords_spellable args h.2
    simp [Expr.words, grouped_spellable, TokenKind.spellable, hobject, hargs, h.1.2]

theorem itemWords_spellable (es : List Expr) (h : itemsWritable es = true) :
    (itemWords es).all TokenKind.spellable = true := by
  match es with
  | [] => rfl
  | e :: es =>
    rw [itemsWritable, Bool.and_eq_true] at h
    have he := e.words_spellable h.1
    have hes := itemWords_spellable es h.2
    cases es <;> simp_all [itemWords, TokenKind.spellable]

end

mutual

theorem Stmt.words_spellable (s : Stmt) (h : s.writable = true) :
    s.words.all TokenKind.spellable = true := by
  match s with
  | .declare _ name value | .assign _ name value =>
    rw [Stmt.writable, Bool.and_eq_true] at h
    have hvalue := value.words_spellable h.2
    simp [Stmt.words, TokenKind.spellable, hvalue, h.1]
  | .evaluate _ e =>
    have he := e.words_spellable h
    simp [Stmt.words, TokenKind.spellable, he]
  | .branch _ cond body other =>
    rw [Stmt.writable, Bool.and_eq_true, Bool.and_eq_true] at h
    have hcond := cond.words_spellable h.1.1
    have hbody := stmtWords_spellable body h.1.2
    have hother := otherWords_spellable other h.2
    simp [Stmt.words, TokenKind.spellable, braced_spellable, hcond, hbody, hother]
  | .loop _ cond body =>
    rw [Stmt.writable, Bool.and_eq_true] at h
    have hcond := cond.words_spellable h.1
    have hbody := stmtWords_spellable body h.2
    simp [Stmt.words, TokenKind.spellable, braced_spellable, hcond, hbody]
  | .each _ name items body =>
    rw [Stmt.writable, Bool.and_eq_true, Bool.and_eq_true] at h
    have hitems := items.words_spellable h.1.2
    have hbody := stmtWords_spellable body h.2
    simp [Stmt.words, TokenKind.spellable, braced_spellable, hitems, hbody, h.1.1]
  | .block _ body | .checkpoint _ _ body =>
    have hbody := stmtWords_spellable body h
    simp [Stmt.words, TokenKind.spellable, braced_spellable, hbody]

theorem stmtWords_spellable (ss : List Stmt) (h : stmtsWritable ss = true) :
    (stmtWords ss).all TokenKind.spellable = true := by
  match ss with
  | [] => rfl
  | s :: ss =>
    rw [stmtsWritable, Bool.and_eq_true] at h
    rw [stmtWords, List.all_append, s.words_spellable h.1, stmtWords_spellable ss h.2]
    rfl

theorem otherWords_spellable (other : Option Stmt) (h : otherWritable other = true) :
    (otherWords other).all TokenKind.spellable = true := by
  match other with
  | none => rfl
  | some s =>
    rw [otherWritable, Bool.and_eq_true] at h
    rw [otherWords, List.all_cons, s.words_spellable h.2]
    rfl

end

/-! ## The fewest parentheses -/

/-- The number of opening parentheses.  Calls have theirs in every text for the same tree. -/
def parens (words : List TokenKind) : Nat := words.count .leftParen

@[simp]
theorem parens_nil : parens [] = 0 := rfl

@[simp]
theorem parens_append (words words' : List TokenKind) :
    parens (words ++ words') = parens words + parens words' := List.count_append

@[simp]
theorem parens_paren (words : List TokenKind) :
    parens (.leftParen :: words) = parens words + 1 := List.count_cons_self

@[simp]
theorem parens_cons {k : TokenKind} (hk : k ≠ .leftParen) (words : List TokenKind) :
    parens (k :: words) = parens words := List.count_cons_of_ne hk

theorem UnaryOp.word_ne_paren (op : UnaryOp) : op.word ≠ .leftParen := by
  cases op <;> exact nofun

theorem BinaryOp.word_ne_paren (op : BinaryOp) : op.word ≠ .leftParen := by
  cases op <;> exact nofun

theorem grouped_of_le {min level : Nat} (h : min ≤ level) (words : List TokenKind) :
    grouped min level words = words := if_neg (Nat.not_lt_of_le h)

theorem parens_le_grouped (min level : Nat) (words : List TokenKind) :
    parens words ≤ parens (grouped min level words) := by
  unfold grouped
  split
  · rw [parens_paren, parens_append]
    omega
  · exact Nat.le_refl _

theorem parens_le_of_grouped {min level n : Nat} {words : List TokenKind}
    (h : parens (grouped min level words) ≤ n) : parens words ≤ n :=
  Nat.le_trans (parens_le_grouped min level words) h

theorem parens_grouped_le (min level : Nat) (words : List TokenKind) :
    parens (grouped min level words) ≤ parens words + 1 := by
  unfold grouped
  split
  · exact Nat.le_of_eq (by simp)
  · exact Nat.le_succ _

theorem parens_grouped_mono {min min' : Nat} (h : min ≤ min') (level : Nat)
    (words : List TokenKind) :
    parens (grouped min level words) ≤ parens (grouped min' level words) := by
  by_cases hlevel : level < min
  · have hlevel' := Nat.lt_of_lt_of_le hlevel h
    simp only [grouped, if_pos hlevel, if_pos hlevel', Nat.le_refl]
  · rw [grouped_of_le (Nat.le_of_not_lt hlevel)]
    exact parens_le_grouped min' level words

namespace Grammar

mutual

theorem Expression.parens_le {k : Nat} {ts : List Token} {e : Expr} (h : Expression k ts e)
    (hk : k ≤ 7) : parens (grouped k e.level e.words) ≤ parens (ts.map Token.kind) := by
  match h with
  | .operand h =>
    exact Nat.le_trans (parens_grouped_mono hk e.level e.words) h.parens_le
  | @Expression.binary _ ls rs t op l r ht hlevel hl hr =>
    have hop := op.level_le
    have hleft := hl.parens_le (by omega)
    have hright := hr.parens_le (by omega)
    rw [Expr.level, grouped_of_le hlevel, Expr.words, List.map_append, List.map_cons, ht,
      parens_append, parens_append, parens_cons op.word_ne_paren, parens_cons op.word_ne_paren]
    omega

theorem Operand.parens_le {ts : List Token} {e : Expr} (h : Operand ts e) :
    parens (grouped 7 e.level e.words) ≤ parens (ts.map Token.kind) := by
  match h with
  | .plain h => exact Nat.le_trans (parens_grouped_mono (by decide) e.level e.words) h.parens_le
  | @Operand.signed _ t op e ht h =>
    rw [Expr.level, grouped_of_le (Nat.le_refl 7), Expr.words, List.map_cons, ht,
      parens_cons op.word_ne_paren, parens_cons op.word_ne_paren]
    exact h.parens_le

theorem Accessed.parens_le {ts : List Token} {e : Expr} (h : Accessed ts e) :
    parens (grouped 8 e.level e.words) ≤ parens (ts.map Token.kind) := by
  match h with
  | .plain h => exact h.parens_le
  | @Accessed.field ts dot t e name h hdot ht =>
    have hobject := h.parens_le
    rw [Expr.level, grouped_of_le (Nat.le_refl 8), Expr.words]
    simp [hdot, ht, hobject]
  | @Accessed.method ts us dot t left right e name args h hdot ht hleft hargs hright =>
    have hobject := h.parens_le
    have hargs := hargs.parens_le
    rw [Expr.level, grouped_of_le (Nat.le_refl 8), Expr.words]
    simp [hdot, ht, hleft, hright]
    omega
  | @Accessed.index ts us left right e i h hleft hi hright =>
    have hobject := h.parens_le
    have hi := parens_le_of_grouped (hi.parens_le (by decide))
    rw [Expr.level, grouped_of_le (Nat.le_refl 8), Expr.words]
    simp [hleft, hright]
    omega
  | @Accessed.call ts us left right p name args h hleft hargs hright =>
    have hargs := hargs.parens_le
    rw [Expr.level, grouped_of_le (Nat.le_refl 8), Expr.words]
    simp [hleft, hright]
    omega

theorem Primary.parens_le {ts : List Token} {e : Expr} (h : Primary ts e) :
    parens (grouped 8 e.level e.words) ≤ parens (ts.map Token.kind) := by
  match h with
  | .int ht | .str ht | .yes ht | .no ht | .null ht | .ident ht =>
    simp [Expr.level, grouped_of_le, Expr.words, ht]
  | @Primary.group ts left right e hleft h hright =>
    -- the derivation has one here, and `grouped` writes one at most
    have hinner := parens_le_of_grouped (h.parens_le (by decide))
    have hgrouped := parens_grouped_le 8 e.level e.words
    simp [hleft, hright]
    omega
  | @Primary.list ts left right es hleft h hright =>
    have hitems := h.parens_le
    rw [Expr.level, grouped_of_le (Nat.le_refl 8), Expr.words]
    simp [hleft, hright]
    omega

theorem Items.parens_le {ts : List Token} {es : List Expr} (h : Items ts es) :
    parens (itemWords es) ≤ parens (ts.map Token.kind) := by
  match h with
  | .none => exact Nat.le_refl _
  | .some h => exact h.parens_le

theorem Several.parens_le {ts : List Token} {es : List Expr} (h : Several ts es) :
    parens (itemWords es) ≤ parens (ts.map Token.kind) := by
  match h with
  | @Several.one ts e h =>
    have he := parens_le_of_grouped (h.parens_le (by decide))
    simpa [itemWords] using he
  | @Several.more ts us comma e es h hcomma hs =>
    have he := parens_le_of_grouped (h.parens_le (by decide))
    have hes := hs.parens_le
    have hne : es.isEmpty = false := by cases hs <;> rfl
    rw [itemWords, hne]
    simp [hcomma]
    omega

end

theorem Expression.parens_words_le {ts : List Token} {e : Expr} (h : Expression 1 ts e) :
    parens e.words ≤ parens (ts.map Token.kind) := parens_le_of_grouped (h.parens_le (by decide))

mutual

theorem Statement.parens_le {ts : List Token} {s : Stmt} (h : Statement ts s) :
    parens s.words ≤ parens (ts.map Token.kind) := by
  match h with
  | .declare hfirst ht hequal h hlast =>
    have hvalue := h.parens_words_le
    simpa [Stmt.words, hfirst, ht, hequal, hlast] using hvalue
  | .assign ht hequal h hlast =>
    have hvalue := h.parens_words_le
    simpa [Stmt.words, ht, hequal, hlast] using hvalue
  | .evaluate h hlast =>
    rw [Stmt.words, ← List.cons_append, List.map_append, parens_append, parens_append]
    exact Nat.add_le_add h.parens_words_le (by simp [hlast])
  | .branch h => exact h.parens_le
  | .loop hfirst h hbody =>
    have hcond := h.parens_words_le
    have hbody := hbody.parens_le
    simp [Stmt.words, hfirst]
    omega
  | .each hfirst ht hin h hbody =>
    have hitems := h.parens_words_le
    have hbody := hbody.parens_le
    simp [Stmt.words, hfirst, ht, hin]
    omega
  | .block h => exact h.parens_le
  | .checkpoint hfirst ht hbody =>
    have hbody := hbody.parens_le
    simpa [Stmt.words, hfirst, ht] using hbody

theorem Conditional.parens_le {ts : List Token} {s : Stmt} (h : Conditional ts s) :
    parens s.words ≤ parens (ts.map Token.kind) := by
  match h with
  | .plain hfirst h hbody =>
    have hcond := h.parens_words_le
    have hbody := hbody.parens_le
    simp [Stmt.words, otherWords, hfirst]
    omega
  | .otherwise hfirst h hbody helse hother =>
    have hcond := h.parens_words_le
    have hbody := hbody.parens_le
    have hother := hother.parens_le
    simp [Stmt.words, otherWords, hfirst, helse]
    omega

theorem Other.parens_le {ts : List Token} {s : Stmt} (h : Other ts s) :
    parens s.words ≤ parens (ts.map Token.kind) := by
  match h with
  | .block h => exact h.parens_le
  | .branch h => exact h.parens_le

theorem Block.parens_le {ts : List Token} {body : List Stmt} (h : Block ts body) :
    parens (braced (stmtWords body)) ≤ parens (ts.map Token.kind) := by
  match h with
  | .braces hleft h hright =>
    have hbody := h.parens_le
    simpa [braced, hleft, hright] using hbody

theorem Statements.parens_le {ts : List Token} {ss : List Stmt} (h : Statements ts ss) :
    parens (stmtWords ss) ≤ parens (ts.map Token.kind) := by
  match h with
  | .nil => exact Nat.le_refl _
  | .cons h hs =>
    rw [stmtWords, List.map_append, parens_append, parens_append]
    exact Nat.add_le_add h.parens_le hs.parens_le

end

end Grammar

/-- Whatever words stand for a tree, those written for it have no more parentheses. -/
theorem parens_words_le {tokens : List Token} {p : Program} (h : Grammar.Derives tokens p) :
    parens p.words ≤ parens (tokens.map Token.kind) := Grammar.Statements.parens_le h

end Script
end CheckScript
