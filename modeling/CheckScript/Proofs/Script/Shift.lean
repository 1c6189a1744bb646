/-
Scripts that stand further down.

`down k` moves places `k` lines down and leaves columns and texts as they are.  Words and
problems of a text that begins further down are those of the text, moved down (`tokensFrom_down`),
and so are the problems with names in a tree that is moved down (`resolve_down`) and their order
(`sortDiagnostics_down`).
-/
import CheckScript.Proofs.Script.LineEnds

namespace CheckScript
namespace Script

/-! ## Moving down -/

def Position.down (k : Nat) (p : Position) : Position := ⟨p.line + k, p.column⟩

def Token.down (k : Nat) (t : Token) : Token := ⟨t.kind, t.place.down k⟩

theorem Token.down_kind (k : Nat) (t : Token) : (t.down k).kind = t.kind := rfl

def Diagnostic.down (k : Nat) (d : Diagnostic) : Diagnostic := ⟨d.place.down k, d.problem⟩

mutual

def Expr.down (k : Nat) : Expr → Expr
  | .int p n => .int (p.down k) n
  | .str p s => .str (p.down k) s
  | .bool p b => .bool (p.down k) b
  | .null p => .null (p.down k)
  | .list p items => .list (p.down k) (exprsDown k items)
  | .ident p name => .ident (p.down k) name
  | .unary p op e => .unary (p.down k) op (e.down k)
  | .binary p op left right => .binary (p.down k) op (left.down k) (right.down k)
  | .field p e name => .field (p.down k) (e.down k) name
  | .index p e i => .index (p.down k) (e.down k) (i.down k)
  | .call p name args => .call (p.down k) name (exprsDown k args)
  | .method p e name args => .method (p.down k) (e.down k) name (exprsDown k args)

def exprsDown (k : Nat) : List Expr → List Expr
  | [] => []
  | e :: es => e.down k :: exprsDown k es

end

mutual

def Stmt.down (k : Nat) : Stmt → Stmt
  | .declare line name e => .declare (line + k) name (e.down k)
  | .assign line name e => .assign (line + k) name (e.down k)
  | .evaluate line e => .evaluate (line + k) (e.down k)
  | .branch line cond body other =>
    .branch (line + k) (cond.down k) (stmtsDown k body) (otherDown k other)
  | .loop line cond body => .loop (line + k) (cond.down k) (stmtsDown k body)
  | .each line name items body => .each (line + k) name (items.down k) (stmtsDown k body)
  | .block line body => .block (line + k) (stmtsDown k body)
  | .checkpoint line name body => .checkpoint (line + k) name (stmtsDown k body)

def stmtsDown (k : Nat) : List Stmt → List Stmt
  | [] => []
  | s :: ss => s.down k :: stmtsDown k ss

def otherDown (k : Nat) : Option Stmt → Option Stmt
  | none => none
  | some s => some (s.down k)

end

def Program.down (k : Nat) (p : Program) : Program := ⟨stmtsDown k p.stmts⟩

theorem exprsDown_eq (k : Nat) (es : List Expr) : exprsDown k es = es.map (Expr.down k) := by
  induction es with
  | nil => rfl
  | cons e es ih => rw [exprsDown, ih, List.map_cons]

theorem exprsDown_length (k : Nat) (es : List Expr) : (exprsDown k es).length = es.length := by
  rw [exprsDown_eq, List.length_map]

theorem stmtsDown_eq (k : Nat) (ss : List Stmt) : stmtsDown k ss = ss.map (Stmt.down k) := by
  induction ss with
  | nil => rfl
  | cons s ss ih => rw [stmtsDown, ih, List.map_cons]

/-! ## Words -/

variable {k : Nat}

theorem Position.next_down (k : Nat) (p : Position) (c : Char) :
    (p.down k).next c = (p.next c).down k := by
  unfold next
  split
  · exact congrArg (Position.mk · 1) (Nat.add_right_comm p.line k 1)
  · rfl

theorem Position.after_down (k : Nat) (p : Position) (cs : List Char) :
    (p.down k).after cs = (p.after cs).down k := by
  induction cs generalizing p with
  | nil => rfl
  | cons c cs ih =>
    change ((p.down k).next c).after cs = _
    rw [next_down, ih]
    rfl

theorem skipLine_down (p : Position) (cs : List Char) :
    skipLine (p.down k) cs = ((skipLine p cs).1.down k, (skipLine p cs).2) := by
  induction cs generalizing p with
  | nil => rfl
  | cons c cs ih =>
    unfold skipLine
    split
    · rfl
    · rw [Position.next_down, ih]

theorem skipComment_down (p : Position) (cs : List Char) :
    skipComment (p.down k) cs =
      ((skipComment p cs).1, (skipComment p cs).2.1.down k, (skipComment p cs).2.2) := by
  fun_induction skipComment p cs with
  | case1 => rfl
  | case2 p rest => rw [skipComment, Position.next_down, Position.next_down]
  | case3 p c rest hopen ih =>
    rw [skipComment, Position.next_down, ih]
    exact hopen

def StringRead.down (k : Nat) (r : StringRead) : StringRead :=
  { r with diagnostics := r.diagnostics.map (Diagnostic.down k), place := r.place.down k }

theorem readString_down (p : Position) (cs : List Char) :
    readString (p.down k) cs = (readString p cs).down k := by
  fun_induction readString p cs with
  | case1 | case2 => rfl
  | case3 p rest => rw [readString, Position.next_down]; rfl
  | case4 p => rw [readString, Position.next_down]; rfl
  | case5 p c cs q r d hd ih =>
    rw [readString_escape hd, Position.next_down, Position.next_down, ih]
    rfl
  | case6 p c cs q r hd ih =>
    have hread : readString (((p.next '\\').next c).down k) cs = r.down k := ih
    rw [readString_unknown hd, Position.next_down, Position.next_down]
    simp only [hread]
    rfl
  | case7 p c cs hnewline hquote hend hescape r ih =>
    have hplain : c ≠ '\\' := fun hc => by
      cases cs with
      | nil => exact hend hc rfl
      | cons d cs => exact hescape d cs hc rfl
    rw [readString_plain hnewline hquote hplain, Position.next_down, ih]
    rfl

def Stretch.down (k : Nat) (s : Stretch) : Stretch :=
  { token := s.token.map (Token.down k), diagnostics := s.diagnostics.map (Diagnostic.down k),
    place := s.place.down k, rest := s.rest }

theorem readBlockComment_down (p : Position) (cs : List Char) :
    readBlockComment (p.down k) cs = (readBlockComment p cs).down k := by
  unfold readBlockComment
  rw [Position.next_down, Position.next_down, skipComment_down]
  cases skipComment ((p.next '/').next '*') cs with | mk closed r => ?_
  cases closed <;> rfl

theorem readStringWord_down (p : Position) (cs : List Char) :
    readStringWord (p.down k) cs = (readStringWord p cs).down k := by
  unfold readStringWord
  rw [Position.next_down, readString_down]
  generalize readString (p.next '"') cs = r
  obtain ⟨value, diagnostics, closed, place, rest⟩ := r
  cases closed with
  | true => rfl
  | false =>
    simp only [StringRead.down, Stretch.down, Bool.false_eq_true, if_false, List.map_append]
    rfl

theorem readNumber_down (p : Position) (c : Char) (cs : List Char) :
    readNumber (p.down k) c cs = (readNumber p c cs).down k := by
  unfold readNumber
  rw [Position.next_down]
  simp only [Position.after_down]
  split <;> rfl

theorem readName_down (p : Position) (c : Char) (cs : List Char) :
    readName (p.down k) c cs = (readName p c cs).down k := by
  unfold readName
  rw [Position.next_down]
  simp only [Position.after_down]
  rfl

theorem stretch_down (p : Position) (c : Char) (cs : List Char) :
    stretch (p.down k) c cs = (stretch p c cs).down k := by
  by_cases hquote : c = '"'
  · subst hquote
    exact readStringWord_down p cs
  by_cases hcomment : OpensComment c cs
  · obtain ⟨rfl, hhead | hhead⟩ := hcomment
    · obtain ⟨rest, rfl⟩ := List.head?_eq_some_iff.mp hhead
      change Stretch.blank _ _ = Stretch.down k (Stretch.blank _ _)
      rw [Position.next_down, Position.next_down, skipLine_down]
      rfl
    · obtain ⟨rest, rfl⟩ := List.head?_eq_some_iff.mp hhead
      exact readBlockComment_down p rest
  · rw [stretch_other hquote hcomment, stretch_other hquote hcomment]
    split
    · rw [Position.next_down]
      rfl
    · split
      · exact readNumber_down p c cs
      · split
        · exact readName_down p c cs
        · split
          · rw [Position.next_down, Position.after_down]
            rfl
          · rw [Position.next_down]
            split <;> rfl

theorem tokensFrom_down (p : Position) (cs : List Char) :
    tokensFrom (p.down k) cs =
      ((tokensFrom p cs).1.map (Token.down k), (tokensFrom p cs).2.map (Diagnostic.down k)) := by
  fun_induction tokensFrom p cs with
  | case1 p => rw [tokensFrom]; rfl
  | case2 p c cs s r ih =>
    rw [tokensFrom, stretch_down]
    have hrest : tokensFrom ((stretch p c cs).down k).place ((stretch p c cs).down k).rest =
        (r.1.map (Token.down k), r.2.map (Diagnostic.down k)) := ih
    rw [hrest]
    simp only [List.map_append, ← Option.toList_map]
    rfl

/-! ## Names -/

theorem at?_down (p : Position) (problem : Option Problem) :
    at? (p.down k) problem = (at? p problem).map (Diagnostic.down k) := by
  cases problem <;> rfl

mutual

theorem checkExpr_down (names : Names) (e : Expr) :
    checkExpr names (e.down k) = (checkExpr names e).map (Diagnostic.down k) := by
  cases e with
  | int | str | bool | null => rfl
  | list p items => exact checkExprs_down names items
  | ident p name => exact at?_down p _
  | unary p op e | field p e name => exact checkExpr_down names e
  | binary p op left right | index p left right =>
    simp only [Expr.down, checkExpr, List.map_append, checkExpr_down names]
  | call p name args =>
    simp only [Expr.down, checkExpr, List.map_append, at?_down, checkExprs_down names,
      exprsDown_length]
  | method p object name args =>
    simp only [Expr.down, checkExpr, List.map_append, at?_down, checkExpr_down names,
      checkExprs_down names, exprsDown_length]

theorem checkExprs_down (names : Names) (es : List Expr) :
    checkExprs names (exprsDown k es) = (checkExprs names es).map (Diagnostic.down k) := by
  cases es with
  | nil => rfl
  | cons e es => 
    simp only [exprsDown, checkExprs, List.map_append, checkExpr_down names, checkExprs_down names]

end

mutual

theorem checkStmt_down (names : Names) (s : Stmt) :
    checkStmt names (s.down k) =
      ((checkStmt names s).1.map (Diagnostic.down k), (checkStmt names s).2) := by
  cases s with
  | declare line name e | assign line name e =>
    have hline : ∀ problem, at? ⟨line + k, 1⟩ problem =
        (at? ⟨line, 1⟩ problem).map (Diagnostic.down k) := at?_down ⟨line, 1⟩
    simp only [Stmt.down, checkStmt, List.map_append, checkExpr_down names, hline]
  | evaluate line e => exact Prod.ext (checkExpr_down names e) rfl
  | branch line cond body other =>
    simp only [Stmt.down, checkStmt, List.map_append, checkExpr_down names,
      checkStmts_down _ body, checkOther_down names other]
  | loop line cond body =>
    simp only [Stmt.down, checkStmt, List.map_append, checkExpr_down names,
      checkStmts_down _ body]
  | each line name items body =>
    have hline : ∀ problem, at? ⟨line + k, 1⟩ problem =
        (at? ⟨line, 1⟩ problem).map (Diagnostic.down k) := at?_down ⟨line, 1⟩
    simp only [Stmt.down, checkStmt, List.map_append, checkExpr_down names, hline,
      checkStmts_down _ body]
  | block line body | checkpoint line name body =>
    exact Prod.ext (checkStmts_down _ body) rfl

theorem checkStmts_down (names : Names) (ss : List Stmt) :
    checkStmts names (stmtsDown k ss) = (checkStmts names ss).map (Diagnostic.down k) := by
  cases ss with
  | nil => rfl
  | cons s ss => 
    simp only [stmtsDown, checkStmts, List.map_append, checkStmt_down names s, checkStmts_down _ ss]

theorem checkOther_down (names : Names) (other : Option Stmt) :
    checkOther names (otherDown k other) = (checkOther names other).map (Diagnostic.down k) := by
  cases other with
  | none => rfl
  | some s => exact congrArg Prod.fst (checkStmt_down names s)

end

theorem resolve_down (p : Program) :
    resolve (p.down k) = (resolve p).map (Diagnostic.down k) :=
  checkStmts_down [[]] p.stmts

theorem Diagnostic.noLater_down (a b : Diagnostic) :
    (a.down k).noLater (b.down k) = a.noLater b := by
  change (decide (a.place.line + k < b.place.line + k) ||
    a.place.line + k == b.place.line + k && decide (a.place.column ≤ b.place.column)) =
      a.noLater b
  rw [Bool.eq_iff_iff]
  simp only [noLater, Position.noLater, Bool.or_eq_true, Bool.and_eq_true, decide_eq_true_eq,
    beq_iff_eq]
  omega

theorem sortDiagnostics_down (ds : List Diagnostic) :
    sortDiagnostics (ds.map (Diagnostic.down k)) =
      (sortDiagnostics ds).map (Diagnostic.down k) :=
  (List.map_mergeSort fun a _ b _ => (Diagnostic.noLater_down a b).symm).symm

end Script
end CheckScript
