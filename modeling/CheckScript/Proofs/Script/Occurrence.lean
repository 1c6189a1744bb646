/-
Occurrences in a script.

`resolve` walks through a script from its outside to its inside.  A `Node` is what one of its
four functions looks at, and an occurrence is the way to a node: the numbers of the children
to go into.  At every occurrence `Program.at?` gives the node that stands there and the names
that `resolve` knows there.  What `resolve` reports are the problems of the nodes themselves
(`mem_resolve_iff`), so that each report belongs to an occurrence.
-/
import CheckScript.Proofs.Script.Soundness
import CheckScript.Script.Resolve

namespace CheckScript
namespace Script

inductive Node where
  | expr (e : Expr)
  | exprs (es : List Expr)
  | stmt (st : Stmt)
  | stmts (ss : List Stmt)

namespace Node

/-- What `resolve` reports on a node, all that is in it included. -/
def check (names : Names) : Node → List Diagnostic
  | expr e => checkExpr names e
  | exprs es => checkExprs names es
  | stmt st => (checkStmt names st).1
  | stmts ss => checkStmts names ss

/-- What `resolve` reports on a node for its own name. -/
def own (names : Names) : Node → List Diagnostic
  | expr (.ident p name) => at? p (problemOfName names name)
  | expr (.call p name args) => at? p (problemOfCall name args.length)
  | expr (.method p _ name args) => at? p (problemOfMethod name args.length)
  | stmt (.declare line name _) => at? ⟨line, 1⟩ (problemOfDeclaration name)
  | stmt (.assign line name _) => at? ⟨line, 1⟩ (problemOfAssignment names name)
  | stmt (.each line name _ _) => at? ⟨line, 1⟩ (problemOfDeclaration name)
  | _ => []

/-- The nodes that stand directly in a node, with the names that are known in each. -/
def children (names : Names) : Node → List (Names × Node)
  | expr (.list _ items) => [(names, exprs items)]
  | expr (.unary _ _ operand) => [(names, expr operand)]
  | expr (.binary _ _ left right) => [(names, expr left), (names, expr right)]
  | expr (.field _ object _) => [(names, expr object)]
  | expr (.index _ object index) => [(names, expr object), (names, expr index)]
  | expr (.call _ _ args) => [(names, exprs args)]
  | expr (.method _ object _ args) => [(names, expr object), (names, exprs args)]
  | expr _ => []
  | exprs [] => []
  | exprs (e :: es) => [(names, expr e), (names, exprs es)]
  | stmt (.declare _ _ value) | stmt (.assign _ _ value) => [(names, expr value)]
  | stmt (.evaluate _ e) => [(names, expr e)]
  | stmt (.branch _ cond body other) =>
    (names, expr cond) :: ([] :: names, stmts body) ::
      other.toList.map fun st => (names, stmt st)
  | stmt (.loop _ cond body) => [(names, expr cond), ([] :: names, stmts body)]
  | stmt (.each _ name items body) => [(names, expr items), ([name] :: names, stmts body)]
  | stmt (.block _ body) | stmt (.checkpoint _ _ body) => [([] :: names, stmts body)]
  | stmts [] => []
  | stmts (st :: ss) => [(names, stmt st), ((checkStmt names st).2, stmts ss)]

theorem children_lt {names : Names} {node : Node} {child : Names × Node}
    (h : child ∈ node.children names) : sizeOf child.2 < sizeOf node := by
  match node with
  | expr e => cases e <;> simp_all [children] <;> grind
  | exprs es => cases es <;> simp_all [children] <;> grind
  | stmt st => cases st <;> simp_all [children] <;> grind
  | stmts ss => cases ss <;> simp_all [children] <;> grind

theorem mem_check {d : Diagnostic} {names : Names} {node : Node} :
    d ∈ node.check names ↔
      d ∈ node.own names ∨ ∃ child ∈ node.children names, d ∈ child.2.check child.1 := by
  match node with
  | expr e => cases e <;> simp [check, own, children, checkExpr] <;> grind
  | exprs es => cases es <;> simp [check, own, children, checkExprs]
  | stmt st =>
    cases st with
    | branch line cond body other =>
      cases other <;> simp [check, own, children, checkStmt, checkOther]
    | _ => simp [check, own, children, checkStmt] <;> grind
  | stmts ss => cases ss <;> simp [check, own, children, checkStmts]

/-! ## Occurrences -/

/-- The node at the end of a way into `node`, and the names that are known there. -/
def nodeAt? (names : Names) (node : Node) : List Nat → Option (Names × Node)
  | [] => some (names, node)
  | i :: path => (node.children names)[i]?.bind fun child => child.2.nodeAt? child.1 path

theorem nodeAt?_cons {names : Names} {node : Node} {i : Nat} {path : List Nat}
    {place : Names × Node} :
    node.nodeAt? names (i :: path) = some place ↔
      ∃ child, (node.children names)[i]? = some child ∧
        child.2.nodeAt? child.1 path = some place := by
  rw [nodeAt?, Option.bind_eq_some_iff]

/-- A way that goes on from a node goes on from the place that it has come to. -/
theorem nodeAt?_append {names : Names} {node : Node} {path : List Nat} {place : Names × Node}
    (h : node.nodeAt? names path = some place) (more : List Nat) :
    node.nodeAt? names (path ++ more) = place.2.nodeAt? place.1 more := by
  induction path generalizing names node with
  | nil =>
    obtain rfl := Option.some.inj h
    rfl
  | cons i path ih =>
    obtain ⟨child, hchild, hplace⟩ := nodeAt?_cons.mp h
    rw [List.cons_append, nodeAt?, hchild]
    exact ih hplace

/-- What is reported on a node is reported for the name of a node that stands in it. -/
theorem mem_check_iff {d : Diagnostic} {names : Names} {node : Node} :
    d ∈ node.check names ↔
      ∃ path place, node.nodeAt? names path = some place ∧ d ∈ place.2.own place.1 := by
  rw [mem_check]
  constructor
  · rintro (hown | ⟨child, hchild, hd⟩)
    · exact ⟨[], _, rfl, hown⟩
    · have := children_lt hchild
      obtain ⟨path, place, hplace, hown⟩ := mem_check_iff.mp hd
      obtain ⟨i, hi⟩ := List.getElem?_of_mem hchild
      exact ⟨i :: path, place, nodeAt?_cons.mpr ⟨child, hi, hplace⟩, hown⟩
  · rintro ⟨path, place, hplace, hown⟩
    cases path with
    | nil =>
      obtain rfl := Option.some.inj hplace
      exact .inl hown
    | cons i path =>
      obtain ⟨child, hi, hplace⟩ := nodeAt?_cons.mp hplace
      have hchild := List.mem_of_getElem? hi
      have := children_lt hchild
      exact .inr ⟨child, hchild, mem_check_iff.mpr ⟨path, place, hplace, hown⟩⟩
termination_by sizeOf node

/-! ## Properties of all nodes -/

/-- Every node that stands in `node` has a property, also `node` itself. -/
def Everywhere (L : Node → Prop) (names : Names) (node : Node) : Prop :=
  ∀ path place, node.nodeAt? names path = some place → L place.2

namespace Everywhere

variable {L : Node → Prop} {names : Names} {node : Node}

theorem here (h : node.Everywhere L names) : L node := h [] _ rfl

theorem inside (h : node.Everywhere L names) {i : Nat} {child : Names × Node}
    (hchild : (node.children names)[i]? = some child) : child.2.Everywhere L child.1 :=
  fun path place hplace => h (i :: path) place (nodeAt?_cons.mpr ⟨child, hchild, hplace⟩)

theorem below (h : node.Everywhere L names) {path : List Nat} {place : Names × Node}
    (hplace : node.nodeAt? names path = some place) : place.2.Everywhere L place.1 :=
  fun more _ hmore => h (path ++ more) _ ((nodeAt?_append hplace more).trans hmore)

theorem mk (hhere : L node)
    (hinside : ∀ child ∈ node.children names, child.2.Everywhere L child.1) :
    node.Everywhere L names := by
  intro path place hplace
  cases path with
  | nil =>
    obtain rfl := Option.some.inj hplace
    exact hhere
  | cons i path =>
    obtain ⟨child, hi, hplace⟩ := nodeAt?_cons.mp hplace
    exact hinside child (List.mem_of_getElem? hi) path place hplace

end Everywhere
end Node

/-- The node at an occurrence in a script, and the names that `resolve` knows there. -/
def Program.nodeAt? (p : Program) (path : List Nat) : Option (Names × Node) :=
  (Node.stmts p.stmts).nodeAt? [[]] path

/-- `resolve` reports the problems of the nodes that stand in a script. -/
theorem mem_resolve_iff {d : Diagnostic} {p : Program} :
    d ∈ resolve p ↔
      ∃ path place, p.nodeAt? path = some place ∧ d ∈ place.2.own place.1 := by
  show d ∈ (Node.stmts p.stmts).check [[]] ↔ _
  exact Node.mem_check_iff

/-! ## Nodes of scripts that were read -/

/-- What can stand behind the other branch's word: a block or one more condition. -/
def Stmt.isAlternative : Stmt → Bool
  | .block .. | .branch .. => true
  | _ => false

/-- What the grammar says of a single node: its literal has `P`, its other branch is one. -/
def Node.Formed (P : Int → Prop) : Node → Prop
  | expr (.int _ n) => P n
  | stmt (.branch _ _ _ (some st)) => st.isAlternative = true
  | _ => True

namespace Grammar

variable {P : Int → Prop}

/-- A token that is no literal without `P`. -/
def Bears (P : Int → Prop) (t : Token) : Prop := ∀ n : Nat, t.kind = .int n → P n

/-- All nodes in `node` are formed, whatever names are known. -/
def Formed (P : Int → Prop) (node : Node) : Prop :=
  ∀ names, node.Everywhere (Node.Formed P) names

namespace Formed

theorem leaf {node : Node} (h : node.Formed P) (hleaf : ∀ names, node.children names = []) :
    Formed P node :=
  fun names => .mk h (by rw [hleaf]; exact List.forall_mem_nil _)

theorem one {node : Node} {child : Names → Names × Node} (h : node.Formed P)
    (hchild : ∀ names, node.children names = [child names])
    (hinside : ∀ names, Formed P (child names).2) : Formed P node :=
  fun names => .mk h (by
    rw [hchild, List.forall_mem_singleton]
    exact hinside names _)

theorem two {node : Node} {first second : Names → Names × Node} (h : node.Formed P)
    (hchildren : ∀ names, node.children names = [first names, second names])
    (hfirst : ∀ names, Formed P (first names).2) (hsecond : ∀ names, Formed P (second names).2) :
    Formed P node :=
  fun names => .mk h (by
    rw [hchildren, List.forall_mem_cons, List.forall_mem_singleton]
    exact ⟨hfirst names _, hsecond names _⟩)

end Formed

mutual

theorem Expression.formed {k : Nat} {ts : List Token} {e : Expr} (h : Expression k ts e)
    (hts : ∀ t ∈ ts, Bears P t) : Formed P (.expr e) := by
  match h with
  | .operand h => exact h.formed hts
  | .binary _ _ hl hr =>
    obtain ⟨hls, -, hrs⟩ := by simpa only [List.forall_mem_append, List.forall_mem_cons] using hts
    exact .two trivial (fun _ => rfl) (fun _ => hl.formed hls) (fun _ => hr.formed hrs)

theorem Operand.formed {ts : List Token} {e : Expr} (h : Operand ts e)
    (hts : ∀ t ∈ ts, Bears P t) : Formed P (.expr e) := by
  match h with
  | .plain h => exact h.formed hts
  | .signed _ h =>
    exact .one trivial (fun _ => rfl) (fun _ => h.formed (List.forall_mem_cons.mp hts).2)

theorem Accessed.formed {ts : List Token} {e : Expr} (h : Accessed ts e)
    (hts : ∀ t ∈ ts, Bears P t) : Formed P (.expr e) := by
  match h with
  | .plain h => exact h.formed hts
  | .field h _ _ =>
    exact .one trivial (fun _ => rfl) (fun _ => h.formed (List.forall_mem_append.mp hts).1)
  | .method h _ _ _ hargs _ =>
    obtain ⟨hobject, -, -, -, hitems, -⟩ := by
      simpa only [List.forall_mem_append, List.forall_mem_cons] using hts
    exact .two trivial (fun _ => rfl) (fun _ => h.formed hobject) (fun _ => hargs.formed hitems)
  | .index h _ hi _ =>
    obtain ⟨hobject, -, hindex, -⟩ := by
      simpa only [List.forall_mem_append, List.forall_mem_cons] using hts
    exact .two trivial (fun _ => rfl) (fun _ => h.formed hobject) (fun _ => hi.formed hindex)
  | .call _ _ hargs _ =>
    obtain ⟨-, -, hitems, -⟩ := by
      simpa only [List.forall_mem_append, List.forall_mem_cons] using hts
    exact .one trivial (fun _ => rfl) (fun _ => hargs.formed hitems)

theorem Primary.formed {ts : List Token} {e : Expr} (h : Primary ts e)
    (hts : ∀ t ∈ ts, Bears P t) : Formed P (.expr e) := by
  match h with
  | .int ht => exact .leaf (hts _ List.mem_cons_self _ ht) (fun _ => rfl)
  | .str _ | .yes _ | .no _ | .null _ | .ident _ => exact .leaf trivial (fun _ => rfl)
  | .group _ h _ =>
    obtain ⟨-, hinner, -⟩ := by
      simpa only [List.forall_mem_append, List.forall_mem_cons] using hts
    exact h.formed hinner
  | .list _ h _ =>
    obtain ⟨-, hitems, -⟩ := by
      simpa only [List.forall_mem_append, List.forall_mem_cons] using hts
    exact .one trivial (fun _ => rfl) (fun _ => h.formed hitems)

theorem Items.formed {ts : List Token} {es : List Expr} (h : Items ts es)
    (hts : ∀ t ∈ ts, Bears P t) : Formed P (.exprs es) := by
  match h with
  | .none => exact .leaf trivial (fun _ => rfl)
  | .some h => exact h.formed hts

theorem Several.formed {ts : List Token} {es : List Expr} (h : Several ts es)
    (hts : ∀ t ∈ ts, Bears P t) : Formed P (.exprs es) := by
  match h with
  | .one h =>
    exact .two trivial (fun _ => rfl) (fun _ => h.formed hts)
      (fun _ => .leaf trivial (fun _ => rfl))
  | .more h _ hs =>
    obtain ⟨hfirst, -, hrest⟩ := by
      simpa only [List.forall_mem_append, List.forall_mem_cons] using hts
    exact .two trivial (fun _ => rfl) (fun _ => h.formed hfirst) (fun _ => hs.formed hrest)

end

mutual

theorem Statement.formed {ts : List Token} {s : Stmt} (h : Statement ts s)
    (hts : ∀ t ∈ ts, Bears P t) : Formed P (.stmt s) := by
  match h with
  | .declare _ _ _ h _ =>
    obtain ⟨-, -, -, hvalue, -⟩ := by
      simpa only [List.forall_mem_append, List.forall_mem_cons] using hts
    exact .one trivial (fun _ => rfl) (fun _ => h.formed hvalue)
  | .assign _ _ h _ =>
    obtain ⟨-, -, hvalue, -⟩ := by
      simpa only [List.forall_mem_append, List.forall_mem_cons] using hts
    exact .one trivial (fun _ => rfl) (fun _ => h.formed hvalue)
  | .evaluate h _ =>
    rw [← List.cons_append, List.forall_mem_append] at hts
    exact .one trivial (fun _ => rfl) (fun _ => h.formed hts.1)
  | .branch h => exact h.formed hts
  | .loop _ h hbody =>
    obtain ⟨-, hcond, hinner⟩ := by
      simpa only [List.forall_mem_append, List.forall_mem_cons] using hts
    exact .two trivial (fun _ => rfl) (fun _ => h.formed hcond) (fun _ => hbody.formed hinner)
  | .each _ _ _ h hbody =>
    obtain ⟨-, -, -, hitems, hinner⟩ := by
      simpa only [List.forall_mem_append, List.forall_mem_cons] using hts
    exact .two trivial (fun _ => rfl) (fun _ => h.formed hitems) (fun _ => hbody.formed hinner)
  | .block h => exact .one trivial (fun _ => rfl) (fun _ => h.formed hts)
  | .checkpoint _ _ hbody =>
    exact .one trivial (fun _ => rfl) (fun _ => hbody.formed
      (List.forall_mem_cons.mp (List.forall_mem_cons.mp hts).2).2)

theorem Conditional.formed {ts : List Token} {s : Stmt} (h : Conditional ts s)
    (hts : ∀ t ∈ ts, Bears P t) : Formed P (.stmt s) := by
  match h with
  | .plain _ h hbody =>
    obtain ⟨-, hcond, hinner⟩ := by
      simpa only [List.forall_mem_append, List.forall_mem_cons] using hts
    exact .two trivial (fun _ => rfl) (fun _ => h.formed hcond) (fun _ => hbody.formed hinner)
  | .otherwise _ h hbody _ hother =>
    obtain ⟨-, ⟨hcond, hinner⟩, -, helse⟩ := by
      simpa only [List.forall_mem_append, List.forall_mem_cons] using hts
    obtain ⟨halternative, hformed⟩ := hother.formed helse
    intro names
    refine .mk halternative fun child hchild => ?_
    obtain rfl | rfl | rfl := by simpa [Node.children] using hchild
    · exact h.formed hcond _
    · exact hbody.formed hinner _
    · exact hformed _

theorem Other.formed {ts : List Token} {s : Stmt} (h : Other ts s)
    (hts : ∀ t ∈ ts, Bears P t) : s.isAlternative = true ∧ Formed P (.stmt s) := by
  match h with
  | .block h => exact ⟨rfl, .one trivial (fun _ => rfl) (fun _ => h.formed hts)⟩
  | .branch h =>
    refine ⟨?_, h.formed hts⟩
    cases h <;> rfl

theorem Block.formed {ts : List Token} {body : List Stmt} (h : Block ts body)
    (hts : ∀ t ∈ ts, Bears P t) : Formed P (.stmts body) := by
  match h with
  | .braces _ h _ =>
    obtain ⟨-, hinner, -⟩ := by
      simpa only [List.forall_mem_append, List.forall_mem_cons] using hts
    exact h.formed hinner

theorem Statements.formed {ts : List Token} {ss : List Stmt} (h : Statements ts ss)
    (hts : ∀ t ∈ ts, Bears P t) : Formed P (.stmts ss) := by
  match h with
  | .nil => exact .leaf trivial (fun _ => rfl)
  | .cons h hs =>
    obtain ⟨hfirst, hrest⟩ := List.forall_mem_append.mp hts
    exact .two trivial (fun _ => rfl) (fun _ => h.formed hfirst) (fun _ => hs.formed hrest)

end

end Grammar

/-- All nodes of a script that was read without a report are formed. -/
theorem formed_of_parse {P : Int → Prop} {tokens : List Token} {finish : Token} {p : Program}
    (htokens : ∀ t ∈ tokens, t.kind ≠ .finish) (hfinish : finish.kind = .finish)
    (hparse : parse (tokens ++ [finish]) = (p, [])) (hliterals : ∀ t ∈ tokens, Grammar.Bears P t)
    {path : List Nat} {place : Names × Node} (h : p.nodeAt? path = some place) :
    place.2.Formed P := by
  have hderives := derives_of_parse htokens hfinish (congrArg Prod.snd hparse)
  rw [hparse] at hderives
  exact hderives.formed hliterals [[]] path place h

end Script
end CheckScript
