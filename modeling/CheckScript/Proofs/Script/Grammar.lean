/-
The grammar of scripts: which words, one by one and in order, each part of a tree consists
of, and which of them gives the part its place.

It is stated without the parser.  Binary operators bind to the left, each level closer than
the ones below it: what stands left of an operator may hold operators of the same level, what
stands right of it only closer ones.
-/
import CheckScript.Script.Parser.Statement

namespace CheckScript
namespace Script

namespace UnaryOp

def word : UnaryOp → TokenKind
  | not => .bang
  | negate => .minus

theorem ofToken_eq_some {kind : TokenKind} {op : UnaryOp} :
    ofToken kind = some op ↔ kind = op.word := by
  cases kind <;> cases op <;> simp [ofToken, word]

theorem word_ne_finish (op : UnaryOp) : op.word ≠ .finish := by
  cases op <;> exact nofun

end UnaryOp

namespace BinaryOp

def word : BinaryOp → TokenKind
  | or => .pipePipe
  | and => .ampAmp
  | eq => .equalEqual
  | ne => .bangEqual
  | lt => .less
  | le => .lessEqual
  | gt => .greater
  | ge => .greaterEqual
  | add => .plus
  | sub => .minus
  | mul => .star
  | div => .slash
  | rem => .percent

theorem ofToken_eq_some {kind : TokenKind} {op : BinaryOp} :
    ofToken kind = some op ↔ kind = op.word := by
  cases kind <;> cases op <;> simp [ofToken, word]

theorem word_ne_finish (op : BinaryOp) : op.word ≠ .finish := by
  cases op <;> exact nofun

theorem level_pos (op : BinaryOp) : 1 ≤ op.level := by cases op <;> decide

theorem level_le (op : BinaryOp) : op.level ≤ 6 := by cases op <;> decide

theorem ofToken_word (op : BinaryOp) : ofToken op.word = some op := ofToken_eq_some.mpr rfl

end BinaryOp

namespace TokenKind

def beginsPrimary : TokenKind → Bool
  | int _ | str _ | trueWord | falseWord | nullWord | ident _ | leftParen | leftBracket => true
  | _ => false

def beginsExpression (k : TokenKind) : Bool := k.beginsPrimary || (UnaryOp.ofToken k).isSome

def beginsStatement : TokenKind → Bool
  | letWord | ifWord | whileWord | forWord | leftBrace | checkpointWord => true
  | k => k.beginsExpression

/-- Words that stand in statements around expressions, but not in expressions. -/
def outsideExpressions : TokenKind → Bool
  | letWord | ifWord | elseWord | whileWord | forWord | inWord | checkpointWord | leftBrace
  | rightBrace | semicolon | equal | finish => true
  | _ => false

/-- Words that stand behind whole expressions. -/
def closesExpression : TokenKind → Bool
  | rightParen | rightBracket | comma | semicolon | leftBrace => true
  | _ => false

theorem ofToken_of_beginsPrimary {k : TokenKind} (h : k.beginsPrimary = true) :
    UnaryOp.ofToken k = none := by
  cases k <;> first | rfl | cases h

theorem beginsStatement_of_beginsExpression {k : TokenKind} (h : k.beginsExpression = true) :
    k.beginsStatement = true := by
  cases k <;> first | rfl | exact h

end TokenKind

namespace Grammar

/-! ## Expressions -/

mutual

/-- An expression whose operators outside of parentheses are of level `level` or closer. -/
inductive Expression : Nat → List Token → Expr → Prop where
  | operand {level : Nat} {ts : List Token} {e : Expr} (h : Operand ts e) :
      Expression level ts e
  | binary {level : Nat} {ls rs : List Token} {t : Token} {op : BinaryOp} {l r : Expr}
      (ht : t.kind = op.word) (hlevel : level ≤ op.level) (hl : Expression op.level ls l)
      (hr : Expression (op.level + 1) rs r) :
      Expression level (ls ++ t :: rs) (.binary t.place op l r)

/-- What an operator stands between: any number of signs before what they apply to. -/
inductive Operand : List Token → Expr → Prop where
  | plain {ts : List Token} {e : Expr} (h : Accessed ts e) : Operand ts e
  | signed {ts : List Token} {t : Token} {op : UnaryOp} {e : Expr} (ht : t.kind = op.word)
      (h : Operand ts e) : Operand (t :: ts) (.unary t.place op e)

/-- Something with any number of accesses behind it.  A name can be called, also one in
parentheses. -/
inductive Accessed : List Token → Expr → Prop where
  | plain {ts : List Token} {e : Expr} (h : Primary ts e) : Accessed ts e
  | field {ts : List Token} {dot t : Token} {e : Expr} {name : String} (h : Accessed ts e)
      (hdot : dot.kind = .dot) (ht : t.kind = .ident name) :
      Accessed (ts ++ [dot, t]) (.field dot.place e name)
  | method {ts us : List Token} {dot t left right : Token} {e : Expr} {name : String}
      {args : List Expr} (h : Accessed ts e) (hdot : dot.kind = .dot)
      (ht : t.kind = .ident name) (hleft : left.kind = .leftParen) (hargs : Items us args)
      (hright : right.kind = .rightParen) :
      Accessed (ts ++ dot :: t :: left :: (us ++ [right])) (.method dot.place e name args)
  | index {ts us : List Token} {left right : Token} {e i : Expr} (h : Accessed ts e)
      (hleft : left.kind = .leftBracket) (hi : Expression 1 us i)
      (hright : right.kind = .rightBracket) :
      Accessed (ts ++ left :: (us ++ [right])) (.index left.place e i)
  | call {ts us : List Token} {left right : Token} {p : Position} {name : String}
      {args : List Expr} (h : Accessed ts (.ident p name)) (hleft : left.kind = .leftParen)
      (hargs : Items us args) (hright : right.kind = .rightParen) :
      Accessed (ts ++ left :: (us ++ [right])) (.call p name args)

inductive Primary : List Token → Expr → Prop where
  | int {t : Token} {n : Nat} (ht : t.kind = .int n) : Primary [t] (.int t.place n)
  | str {t : Token} {s : String} (ht : t.kind = .str s) : Primary [t] (.str t.place s)
  | yes {t : Token} (ht : t.kind = .trueWord) : Primary [t] (.bool t.place true)
  | no {t : Token} (ht : t.kind = .falseWord) : Primary [t] (.bool t.place false)
  | null {t : Token} (ht : t.kind = .nullWord) : Primary [t] (.null t.place)
  | ident {t : Token} {name : String} (ht : t.kind = .ident name) :
      Primary [t] (.ident t.place name)
  | group {ts : List Token} {left right : Token} {e : Expr} (hleft : left.kind = .leftParen)
      (h : Expression 1 ts e) (hright : right.kind = .rightParen) :
      Primary (left :: (ts ++ [right])) e
  | list {ts : List Token} {left right : Token} {es : List Expr}
      (hleft : left.kind = .leftBracket) (h : Items ts es) (hright : right.kind = .rightBracket) :
      Primary (left :: (ts ++ [right])) (.list left.place es)

/-- Any number of expressions with commas between them. -/
inductive Items : List Token → List Expr → Prop where
  | none : Items [] []
  | some {ts : List Token} {es : List Expr} (h : Several ts es) : Items ts es

/-- One expression or more with commas between them. -/
inductive Several : List Token → List Expr → Prop where
  | one {ts : List Token} {e : Expr} (h : Expression 1 ts e) : Several ts [e]
  | more {ts us : List Token} {comma : Token} {e : Expr} {es : List Expr}
      (h : Expression 1 ts e) (hcomma : comma.kind = .comma) (hs : Several us es) :
      Several (ts ++ comma :: us) (e :: es)

end

mutual

theorem Expression.begins {k : Nat} {ts : List Token} {e : Expr} (h : Expression k ts e) :
    ∃ t us, ts = t :: us ∧ t.kind.beginsExpression = true := by
  match h with
  | .operand h => exact h.begins
  | .binary _ _ hl _ =>
    obtain ⟨t, us, rfl, ht⟩ := hl.begins
    exact ⟨t, _, rfl, ht⟩

theorem Operand.begins {ts : List Token} {e : Expr} (h : Operand ts e) :
    ∃ t us, ts = t :: us ∧ t.kind.beginsExpression = true := by
  match h with
  | .plain h =>
    obtain ⟨t, us, rfl, ht⟩ := h.begins
    exact ⟨t, us, rfl, by rw [TokenKind.beginsExpression, ht, Bool.true_or]⟩
  | .signed ht _ =>
    refine ⟨_, _, rfl, ?_⟩
    rw [TokenKind.beginsExpression, UnaryOp.ofToken_eq_some.mpr ht, Option.isSome_some,
      Bool.or_true]

theorem Accessed.begins {ts : List Token} {e : Expr} (h : Accessed ts e) :
    ∃ t us, ts = t :: us ∧ t.kind.beginsPrimary = true := by
  match h with
  | .plain h =>
    cases h with
    | int ht | str ht | yes ht | no ht | null ht | ident ht => exact ⟨_, _, rfl, by rw [ht]; rfl⟩
    | group hleft _ _ | list hleft _ _ => exact ⟨_, _, rfl, by rw [hleft]; rfl⟩
  | .field h _ _ | .method h _ _ _ _ _ | .index h _ _ _ | .call h _ _ _ =>
    obtain ⟨t, us, rfl, ht⟩ := h.begins
    exact ⟨t, _, rfl, ht⟩

end

theorem Several.begins {ts : List Token} {es : List Expr} (h : Several ts es) :
    ∃ t us, ts = t :: us ∧ t.kind.beginsExpression = true := by
  cases h with
  | one h => exact h.begins
  | more h _ _ =>
    obtain ⟨t, us, rfl, ht⟩ := h.begins
    exact ⟨t, _, rfl, ht⟩

/-- None of the words that only statements have. -/
def Inside (ts : List Token) : Prop := ∀ t ∈ ts, t.kind.outsideExpressions = false

namespace Inside

variable {t : Token} {ts us : List Token}

theorem nil : Inside [] := List.forall_mem_nil _

theorem append (ht : Inside ts) (hu : Inside us) : Inside (ts ++ us) :=
  List.forall_mem_append.mpr ⟨ht, hu⟩

theorem cons (ht : t.kind.outsideExpressions = false) (hs : Inside ts) : Inside (t :: ts) :=
  List.forall_mem_cons.mpr ⟨ht, hs⟩

theorem word {kind : TokenKind} (ht : t.kind = kind) (hkind : kind.outsideExpressions = false)
    (hs : Inside ts) : Inside (t :: ts) := cons (ht ▸ hkind) hs

end Inside

mutual

theorem Expression.inside {k : Nat} {ts : List Token} {e : Expr} (h : Expression k ts e) :
    Inside ts := by
  match h with
  | .operand h => exact h.inside
  | @Expression.binary _ _ _ _ op _ _ ht _ hl hr =>
    exact hl.inside.append (.word ht (by cases op <;> rfl) hr.inside)

theorem Operand.inside {ts : List Token} {e : Expr} (h : Operand ts e) : Inside ts := by
  match h with
  | .plain h => exact h.inside
  | @Operand.signed _ _ op _ ht h => exact .word ht (by cases op <;> rfl) h.inside

theorem Accessed.inside {ts : List Token} {e : Expr} (h : Accessed ts e) : Inside ts := by
  match h with
  | .plain h => exact h.inside
  | .field h hdot ht => exact h.inside.append (.word hdot rfl (.word ht rfl .nil))
  | .method h hdot ht hleft hargs hright =>
    have hbehind := hargs.inside.append (.word hright rfl .nil)
    exact h.inside.append (.word hdot rfl (.word ht rfl (.word hleft rfl hbehind)))
  | .index h hleft hi hright =>
    exact h.inside.append (.word hleft rfl (hi.inside.append (.word hright rfl .nil)))
  | .call h hleft hargs hright =>
    exact h.inside.append (.word hleft rfl (hargs.inside.append (.word hright rfl .nil)))

theorem Primary.inside {ts : List Token} {e : Expr} (h : Primary ts e) : Inside ts := by
  match h with
  | .int ht | .str ht | .yes ht | .no ht | .null ht | .ident ht => exact .word ht rfl .nil
  | .group hleft h hright | .list hleft h hright =>
    exact .word hleft rfl (h.inside.append (.word hright rfl .nil))

theorem Items.inside {ts : List Token} {es : List Expr} (h : Items ts es) : Inside ts := by
  match h with
  | .none => exact .nil
  | .some h => exact h.inside

theorem Several.inside {ts : List Token} {es : List Expr} (h : Several ts es) : Inside ts := by
  match h with
  | .one h => exact h.inside
  | .more h hcomma hs => exact h.inside.append (.word hcomma rfl hs.inside)

end

/-- A word that is no operator that binds closer than level `k`. -/
def Below (k : Nat) (kind : TokenKind) : Prop := ∀ op : BinaryOp, kind = op.word → op.level ≤ k

theorem below_of_le {k : Nat} (hk : 6 ≤ k) (kind : TokenKind) : Below k kind := by
  intro op _
  exact Nat.le_trans op.level_le hk

theorem below_word (op : BinaryOp) : Below op.level op.word := by
  intro op' h
  have hsame : some op = some op' := by rw [← BinaryOp.ofToken_word, h, BinaryOp.ofToken_word]
  cases hsame
  exact Nat.le_refl _

theorem below_of_closes {kind : TokenKind} (h : kind.closesExpression = true) (k : Nat) :
    Below k kind := by
  intro op hop
  rw [hop] at h
  cases op <;> cases h

/-! ## Statements -/

mutual

inductive Statement : List Token → Stmt → Prop where
  | declare {ts : List Token} {first t equal last : Token} {name : String} {value : Expr}
      (hfirst : first.kind = .letWord) (ht : t.kind = .ident name) (hequal : equal.kind = .equal)
      (h : Expression 1 ts value) (hlast : last.kind = .semicolon) :
      Statement (first :: t :: equal :: (ts ++ [last])) (.declare first.place.line name value)
  | assign {ts : List Token} {t equal last : Token} {name : String} {value : Expr}
      (ht : t.kind = .ident name) (hequal : equal.kind = .equal) (h : Expression 1 ts value)
      (hlast : last.kind = .semicolon) :
      Statement (t :: equal :: (ts ++ [last])) (.assign t.place.line name value)
  | evaluate {ts : List Token} {t last : Token} {e : Expr} (h : Expression 1 (t :: ts) e)
      (hlast : last.kind = .semicolon) :
      Statement (t :: (ts ++ [last])) (.evaluate t.place.line e)
  | branch {ts : List Token} {s : Stmt} (h : Conditional ts s) : Statement ts s
  | loop {ts us : List Token} {first : Token} {cond : Expr} {body : List Stmt}
      (hfirst : first.kind = .whileWord) (h : Expression 1 ts cond) (hbody : Block us body) :
      Statement (first :: (ts ++ us)) (.loop first.place.line cond body)
  | each {ts us : List Token} {first t inWord : Token} {name : String} {items : Expr}
      {body : List Stmt} (hfirst : first.kind = .forWord) (ht : t.kind = .ident name)
      (hin : inWord.kind = .inWord) (h : Expression 1 ts items) (hbody : Block us body) :
      Statement (first :: t :: inWord :: (ts ++ us)) (.each first.place.line name items body)
  | block {ts : List Token} {first : Token} {body : List Stmt} (h : Block (first :: ts) body) :
      Statement (first :: ts) (.block first.place.line body)
  | checkpoint {ts : List Token} {first t : Token} {name : String} {body : List Stmt}
      (hfirst : first.kind = .checkpointWord) (ht : t.kind = .str name) (hbody : Block ts body) :
      Statement (first :: t :: ts) (.checkpoint first.place.line name body)

/-- A condition with its body, and with another branch or without. -/
inductive Conditional : List Token → Stmt → Prop where
  | plain {ts us : List Token} {first : Token} {cond : Expr} {body : List Stmt}
      (hfirst : first.kind = .ifWord) (h : Expression 1 ts cond) (hbody : Block us body) :
      Conditional (first :: (ts ++ us)) (.branch first.place.line cond body none)
  | otherwise {ts us vs : List Token} {first elseWord : Token} {cond : Expr} {body : List Stmt}
      {other : Stmt} (hfirst : first.kind = .ifWord) (h : Expression 1 ts cond)
      (hbody : Block us body) (helse : elseWord.kind = .elseWord) (hother : Other vs other) :
      Conditional (first :: (ts ++ us ++ elseWord :: vs))
        (.branch first.place.line cond body (some other))

/-- The other branch of a condition: a block or one more condition. -/
inductive Other : List Token → Stmt → Prop where
  | block {ts : List Token} {first : Token} {body : List Stmt} (h : Block (first :: ts) body) :
      Other (first :: ts) (.block first.place.line body)
  | branch {ts : List Token} {s : Stmt} (h : Conditional ts s) : Other ts s

inductive Block : List Token → List Stmt → Prop where
  | braces {ts : List Token} {left right : Token} {body : List Stmt}
      (hleft : left.kind = .leftBrace) (h : Statements ts body)
      (hright : right.kind = .rightBrace) : Block (left :: (ts ++ [right])) body

inductive Statements : List Token → List Stmt → Prop where
  | nil : Statements [] []
  | cons {ts us : List Token} {s : Stmt} {ss : List Stmt} (h : Statement ts s)
      (hs : Statements us ss) : Statements (ts ++ us) (s :: ss)

end

theorem Conditional.begins {ts : List Token} {s : Stmt} (h : Conditional ts s) :
    ∃ t us, ts = t :: us ∧ t.kind = .ifWord := by
  cases h with
  | plain hfirst _ _ | otherwise hfirst _ _ _ _ => exact ⟨_, _, rfl, hfirst⟩

theorem Block.begins {ts : List Token} {body : List Stmt} (h : Block ts body) :
    ∃ t us, ts = t :: us ∧ t.kind = .leftBrace := by
  cases h with
  | braces hleft _ _ => exact ⟨_, _, rfl, hleft⟩

theorem Statement.begins {ts : List Token} {s : Stmt} (h : Statement ts s) :
    ∃ t us, ts = t :: us ∧ t.kind.beginsStatement = true := by
  cases h with
  | declare ht _ _ _ _ | assign ht _ _ _ | loop ht _ _ | each ht _ _ _ _ | checkpoint ht _ _ =>
    exact ⟨_, _, rfl, by rw [ht]; rfl⟩
  | evaluate h _ =>
    obtain ⟨t, us, hts, ht⟩ := h.begins
    cases hts
    exact ⟨_, _, rfl, TokenKind.beginsStatement_of_beginsExpression ht⟩
  | branch h =>
    obtain ⟨t, us, rfl, ht⟩ := h.begins
    exact ⟨_, _, rfl, by rw [ht]; rfl⟩
  | block h =>
    obtain ⟨t, us, hts, ht⟩ := h.begins
    cases hts
    exact ⟨_, _, rfl, by rw [ht]; rfl⟩

/-- The words of a script, without the mark of its end. -/
def Derives (tokens : List Token) (p : Program) : Prop := Statements tokens p.stmts

end Grammar
end Script
end CheckScript
