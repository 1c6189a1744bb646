/-
Where the places in a tree come from.

Faults of a run and problems with names are placed by the tree.  `Expr.places` and
`Stmt.places` collect every place that they can be given, the start of the line of each
statement among them.  In a tree that the grammar derives each of them belongs to a word
(`Statements.origin`), and the places of all problems with names are among them
(`resolve_places`).
-/
import CheckScript.Proofs.Script.Grammar
import CheckScript.Script.Resolve

namespace CheckScript
namespace Script

mutual

def Expr.places : Expr → List Position
  | .int p _ | .str p _ | .bool p _ | .null p | .ident p _ => [p]
  | .list p items | .call p _ items => p :: placesAll items
  | .unary p _ e | .field p e _ => p :: e.places
  | .binary p _ left right | .index p left right => p :: (left.places ++ right.places)
  | .method p object _ args => p :: (object.places ++ placesAll args)

def placesAll : List Expr → List Position
  | [] => []
  | e :: es => e.places ++ placesAll es

end

/-- The start of a line, where problems with a name stand that a statement declares or
assigns. -/
def lineStart (line : Nat) : Position := ⟨line, 1⟩

mutual

def Stmt.places : Stmt → List Position
  | .declare line _ e | .assign line _ e | .evaluate line e => lineStart line :: e.places
  | .branch line cond body other =>
    lineStart line :: (cond.places ++ (stmtPlaces body ++ otherPlaces other))
  | .loop line e body | .each line _ e body => lineStart line :: (e.places ++ stmtPlaces body)
  | .block line body | .checkpoint line _ body => lineStart line :: stmtPlaces body

def stmtPlaces : List Stmt → List Position
  | [] => []
  | s :: ss => s.places ++ stmtPlaces ss

def otherPlaces : Option Stmt → List Position
  | none => []
  | some s => s.places

end

theorem Expr.place_mem (e : Expr) : e.place ∈ e.places := by
  cases e <;> exact List.mem_cons_self

/-! ## Trees of the grammar -/

namespace Grammar

variable {P : Position → Prop}

mutual

theorem Expression.origin {k : Nat} {ts : List Token} {e : Expr} (h : Expression k ts e)
    (hts : ∀ t ∈ ts, P t.place) : ∀ p ∈ e.places, P p := by
  match h with
  | .operand h => exact h.origin hts
  | .binary _ _ hl hr =>
    obtain ⟨hls, ht, hrs⟩ := by simpa only [List.forall_mem_append, List.forall_mem_cons] using hts
    exact List.forall_mem_cons.mpr ⟨ht, List.forall_mem_append.mpr ⟨hl.origin hls, hr.origin hrs⟩⟩

theorem Operand.origin {ts : List Token} {e : Expr} (h : Operand ts e)
    (hts : ∀ t ∈ ts, P t.place) : ∀ p ∈ e.places, P p := by
  match h with
  | .plain h => exact h.origin hts
  | .signed _ h =>
    obtain ⟨ht, hrest⟩ := List.forall_mem_cons.mp hts
    exact List.forall_mem_cons.mpr ⟨ht, h.origin hrest⟩

theorem Accessed.origin {ts : List Token} {e : Expr} (h : Accessed ts e)
    (hts : ∀ t ∈ ts, P t.place) : ∀ p ∈ e.places, P p := by
  match h with
  | .plain h => exact h.origin hts
  | .field h _ _ =>
    obtain ⟨hobject, hdot, -⟩ := by
      simpa only [List.forall_mem_append, List.forall_mem_cons] using hts
    exact List.forall_mem_cons.mpr ⟨hdot, h.origin hobject⟩
  | .method h _ _ _ hargs _ =>
    obtain ⟨hobject, hdot, -, -, hitems, -⟩ := by
      simpa only [List.forall_mem_append, List.forall_mem_cons] using hts
    exact List.forall_mem_cons.mpr
      ⟨hdot, List.forall_mem_append.mpr ⟨h.origin hobject, hargs.origin hitems⟩⟩
  | .index h _ hi _ =>
    obtain ⟨hobject, hleft, hindex, -⟩ := by
      simpa only [List.forall_mem_append, List.forall_mem_cons] using hts
    exact List.forall_mem_cons.mpr
      ⟨hleft, List.forall_mem_append.mpr ⟨h.origin hobject, hi.origin hindex⟩⟩
  | .call h _ hargs _ =>
    obtain ⟨hname, -, hitems, -⟩ := by
      simpa only [List.forall_mem_append, List.forall_mem_cons] using hts
    -- a call stands where its function is named
    exact List.forall_mem_cons.mpr ⟨h.origin hname _ List.mem_cons_self, hargs.origin hitems⟩

theorem Primary.origin {ts : List Token} {e : Expr} (h : Primary ts e)
    (hts : ∀ t ∈ ts, P t.place) : ∀ p ∈ e.places, P p := by
  match h with
  | .int _ | .str _ | .yes _ | .no _ | .null _ | .ident _ =>
    exact List.forall_mem_singleton.mpr (hts _ List.mem_cons_self)
  | .group _ h _ =>
    obtain ⟨-, hinner, -⟩ := by
      simpa only [List.forall_mem_append, List.forall_mem_cons] using hts
    exact h.origin hinner
  | .list _ h _ =>
    obtain ⟨hleft, hitems, -⟩ := by
      simpa only [List.forall_mem_append, List.forall_mem_cons] using hts
    exact List.forall_mem_cons.mpr ⟨hleft, h.origin hitems⟩

theorem Items.origin {ts : List Token} {es : List Expr} (h : Items ts es)
    (hts : ∀ t ∈ ts, P t.place) : ∀ p ∈ placesAll es, P p := by
  match h with
  | .none => exact List.forall_mem_nil _
  | .some h => exact h.origin hts

theorem Several.origin {ts : List Token} {es : List Expr} (h : Several ts es)
    (hts : ∀ t ∈ ts, P t.place) : ∀ p ∈ placesAll es, P p := by
  match h with
  | .one h => exact List.forall_mem_append.mpr ⟨h.origin hts, List.forall_mem_nil _⟩
  | .more h _ hs =>
    obtain ⟨hfirst, -, hrest⟩ := by
      simpa only [List.forall_mem_append, List.forall_mem_cons] using hts
    exact List.forall_mem_append.mpr ⟨h.origin hfirst, hs.origin hrest⟩

end

/-- What holds of the place of a word and of the start of its line. -/
def Marked (P : Position → Prop) (t : Token) : Prop := P t.place ∧ P (lineStart t.place.line)

theorem Expression.origin_marked {k : Nat} {ts : List Token} {e : Expr} (h : Expression k ts e)
    (hts : ∀ t ∈ ts, Marked P t) : ∀ p ∈ e.places, P p := h.origin fun t ht => (hts t ht).1

mutual

theorem Statement.origin {ts : List Token} {s : Stmt} (h : Statement ts s)
    (hts : ∀ t ∈ ts, Marked P t) : ∀ p ∈ s.places, P p := by
  match h with
  | .declare _ _ _ h _ =>
    obtain ⟨hfirst, -, -, hvalue, -⟩ := by
      simpa only [List.forall_mem_append, List.forall_mem_cons] using hts
    exact List.forall_mem_cons.mpr ⟨hfirst.2, h.origin_marked hvalue⟩
  | .assign _ _ h _ =>
    obtain ⟨hfirst, -, hvalue, -⟩ := by
      simpa only [List.forall_mem_append, List.forall_mem_cons] using hts
    exact List.forall_mem_cons.mpr ⟨hfirst.2, h.origin_marked hvalue⟩
  | .evaluate h _ =>
    obtain ⟨hfirst, hrest, -⟩ := by
      simpa only [List.forall_mem_append, List.forall_mem_cons] using hts
    exact List.forall_mem_cons.mpr
      ⟨hfirst.2, h.origin_marked (List.forall_mem_cons.mpr ⟨hfirst, hrest⟩)⟩
  | .branch h => exact h.origin hts
  | .loop _ h hbody =>
    obtain ⟨hfirst, hcond, hblock⟩ := by
      simpa only [List.forall_mem_append, List.forall_mem_cons] using hts
    exact List.forall_mem_cons.mpr ⟨hfirst.2,
      List.forall_mem_append.mpr ⟨h.origin_marked hcond, hbody.origin hblock⟩⟩
  | .each _ _ _ h hbody =>
    obtain ⟨hfirst, -, -, hitems, hblock⟩ := by
      simpa only [List.forall_mem_append, List.forall_mem_cons] using hts
    exact List.forall_mem_cons.mpr ⟨hfirst.2,
      List.forall_mem_append.mpr ⟨h.origin_marked hitems, hbody.origin hblock⟩⟩
  | .block h =>
    exact List.forall_mem_cons.mpr ⟨(hts _ List.mem_cons_self).2, h.origin hts⟩
  | .checkpoint _ _ hbody =>
    obtain ⟨hfirst, -, hblock⟩ := by
      simpa only [List.forall_mem_append, List.forall_mem_cons] using hts
    exact List.forall_mem_cons.mpr ⟨hfirst.2, hbody.origin hblock⟩

theorem Conditional.origin {ts : List Token} {s : Stmt} (h : Conditional ts s)
    (hts : ∀ t ∈ ts, Marked P t) : ∀ p ∈ s.places, P p := by
  match h with
  | .plain _ h hbody =>
    obtain ⟨hfirst, hcond, hblock⟩ := by
      simpa only [List.forall_mem_append, List.forall_mem_cons] using hts
    exact List.forall_mem_cons.mpr ⟨hfirst.2, List.forall_mem_append.mpr
      ⟨h.origin_marked hcond, List.forall_mem_append.mpr
        ⟨hbody.origin hblock, List.forall_mem_nil _⟩⟩⟩
  | .otherwise _ h hbody _ hother =>
    obtain ⟨hfirst, ⟨hcond, hblock⟩, -, hrest⟩ := by
      simpa only [List.forall_mem_append, List.forall_mem_cons] using hts
    exact List.forall_mem_cons.mpr ⟨hfirst.2, List.forall_mem_append.mpr
      ⟨h.origin_marked hcond, List.forall_mem_append.mpr
        ⟨hbody.origin hblock, hother.origin hrest⟩⟩⟩

theorem Other.origin {ts : List Token} {s : Stmt} (h : Other ts s)
    (hts : ∀ t ∈ ts, Marked P t) : ∀ p ∈ s.places, P p := by
  match h with
  | .block h => exact List.forall_mem_cons.mpr ⟨(hts _ List.mem_cons_self).2, h.origin hts⟩
  | .branch h => exact h.origin hts

theorem Block.origin {ts : List Token} {body : List Stmt} (h : Block ts body)
    (hts : ∀ t ∈ ts, Marked P t) : ∀ p ∈ stmtPlaces body, P p := by
  match h with
  | .braces _ h _ =>
    obtain ⟨-, hinner, -⟩ := by
      simpa only [List.forall_mem_append, List.forall_mem_cons] using hts
    exact h.origin hinner

theorem Statements.origin {ts : List Token} {ss : List Stmt} (h : Statements ts ss)
    (hts : ∀ t ∈ ts, Marked P t) : ∀ p ∈ stmtPlaces ss, P p := by
  match h with
  | .nil => exact List.forall_mem_nil _
  | .cons h hs =>
    obtain ⟨hfirst, hrest⟩ := List.forall_mem_append.mp hts
    exact List.forall_mem_append.mpr ⟨h.origin hfirst, hs.origin hrest⟩

end

end Grammar

/-! ## Problems with names -/

section

variable {names : Names} {d : Diagnostic}

theorem at?_place {p : Position} {problem : Option Problem} (h : d ∈ at? p problem) :
    d.place = p := by
  obtain ⟨q, -, rfl⟩ := Option.map_eq_some_iff.mp (Option.mem_toList.mp h)
  rfl

mutual

theorem checkExpr_places (e : Expr) (h : d ∈ checkExpr names e) : d.place ∈ e.places := by
  cases e with
  | int p n | str p s | bool p b | null p => exact nomatch h
  | ident p name => exact List.mem_singleton.mpr (at?_place h)
  | list p items => exact List.mem_cons_of_mem _ (checkExprs_places items h)
  | unary p op e | field p e name => exact List.mem_cons_of_mem _ (checkExpr_places e h)
  | binary p op left right | index p left right =>
    refine List.mem_cons_of_mem _ (List.mem_append.mpr ?_)
    exact (List.mem_append.mp h).imp (checkExpr_places left) (checkExpr_places right)
  | call p name args =>
    rcases List.mem_append.mp h with h | h
    · exact at?_place h ▸ List.mem_cons_self
    · exact List.mem_cons_of_mem _ (checkExprs_places args h)
  | method p object name args =>
    rcases List.mem_append.mp h with h | h
    · rcases List.mem_append.mp h with h | h
      · exact List.mem_cons_of_mem _ (List.mem_append_left _ (checkExpr_places object h))
      · exact at?_place h ▸ List.mem_cons_self
    · exact List.mem_cons_of_mem _ (List.mem_append_right _ (checkExprs_places args h))

theorem checkExprs_places (es : List Expr) (h : d ∈ checkExprs names es) :
    d.place ∈ placesAll es := by
  cases es with
  | nil => exact nomatch h
  | cons e es =>
    exact List.mem_append.mpr
      ((List.mem_append.mp h).imp (checkExpr_places e) (checkExprs_places es))

end

mutual

theorem checkStmt_places {names : Names} (s : Stmt)
    (h : d ∈ (checkStmt names s).1) : d.place ∈ s.places := by
  cases s with
  | declare line name value | assign line name value =>
    rcases List.mem_append.mp h with h | h
    · exact List.mem_cons_of_mem _ (checkExpr_places value h)
    · exact at?_place h ▸ List.mem_cons_self
  | evaluate line e => exact List.mem_cons_of_mem _ (checkExpr_places e h)
  | branch line cond body other =>
    refine List.mem_cons_of_mem _ (List.mem_append.mpr ?_)
    rcases List.mem_append.mp h with h | h
    · refine (List.mem_append.mp h).imp (checkExpr_places cond) fun h => ?_
      exact List.mem_append_left _ (checkStmts_places body h)
    · exact .inr (List.mem_append_right _ (checkOther_places other h))
  | loop line cond body =>
    refine List.mem_cons_of_mem _ (List.mem_append.mpr ?_)
    exact (List.mem_append.mp h).imp (checkExpr_places cond) (checkStmts_places body)
  | each line name items body =>
    rcases List.mem_append.mp h with h | h
    · rcases List.mem_append.mp h with h | h
      · exact List.mem_cons_of_mem _ (List.mem_append_left _ (checkExpr_places items h))
      · exact at?_place h ▸ List.mem_cons_self
    · exact List.mem_cons_of_mem _ (List.mem_append_right _ (checkStmts_places body h))
  | block line body | checkpoint line name body =>
    exact List.mem_cons_of_mem _ (checkStmts_places body h)

theorem checkStmts_places {names : Names} (ss : List Stmt)
    (h : d ∈ checkStmts names ss) : d.place ∈ stmtPlaces ss := by
  cases ss with
  | nil => exact nomatch h
  | cons s ss =>
    exact List.mem_append.mpr
      ((List.mem_append.mp h).imp (checkStmt_places s) (checkStmts_places ss))

theorem checkOther_places {names : Names} (other : Option Stmt)
    (h : d ∈ checkOther names other) : d.place ∈ otherPlaces other := by
  cases other with
  | none => exact nomatch h
  | some s => exact checkStmt_places s h

end

theorem resolve_places {p : Program} (h : d ∈ resolve p) : d.place ∈ stmtPlaces p.stmts :=
  checkStmts_places p.stmts h

end

end Script
end CheckScript
