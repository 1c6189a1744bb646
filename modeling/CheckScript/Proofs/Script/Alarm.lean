/-
Reports of names and calls are real.

`Covers` ties the names that `resolve` knows to the scopes of a run from one side: no name is
missing.  Here nothing more is in the scopes either.  As long as a script declares no global
name, each open block declares exactly the variables of its scope (`Agrees`), at every
occurrence that a run comes to.  So what `resolve` reports as undeclared or unknown has no
value and no function there, and the run fails as soon as it needs one (`alarms_fail`).
-/
import CheckScript.Proofs.Script.Arrival
import CheckScript.Proofs.Script.Resolution

namespace CheckScript
namespace Script

/-! ## Scopes that agree with names -/

/-- Each block declares exactly the variables of its scope. -/
def Agrees : Names → Scopes → Prop
  | [], [] => True
  | block :: names, scope :: scopes =>
    (∀ name, name ∈ block ↔ (scope.get? name).isSome) ∧ Agrees names scopes
  | _, _ => False

theorem Scopes.assign_eq_none {scopes : Scopes} {name : String} {v : Value}
    (h : scopes.get? name = none) : scopes.assign name v = none := by
  induction scopes with
  | nil => rfl
  | cons scope scopes ih =>
    rw [Scopes.get?, Option.or_eq_none_iff] at h
    rw [Scopes.assign, h.1, ih h.2]
    rfl

theorem fresh_scope (name : String) : name ∈ ([] : List String) ↔ (Scope.get? [] name).isSome :=
  ⟨(fun h => nomatch h), fun h => nomatch h⟩

theorem item_scope (name : String) (v : Value) (other : String) :
    other ∈ [name] ↔ (Scope.get? [(name, v)] other).isSome := by
  rw [List.mem_singleton, Scope.get?]
  split
  · rename_i heq
    exact ⟨fun _ => rfl, fun _ => heq.symm⟩
  · rename_i hne
    exact ⟨fun heq => absurd heq.symm hne, fun hsome => nomatch hsome⟩

namespace Agrees

variable {names : Names} {scopes : Scopes}

theorem get? (h : Agrees names scopes) (name : String) :
    names.declares name = true ↔ (scopes.get? name).isSome := by
  induction names generalizing scopes with
  | nil =>
    cases scopes with
    | nil => exact Iff.rfl
    | cons => exact h.elim
  | cons block names ih =>
    cases scopes with
    | nil => exact h.elim
    | cons scope scopes =>
      rw [Names.declares, List.any_cons, Bool.or_eq_true, List.contains_iff_mem, h.1 name,
        Scopes.get?, Option.isSome_or, Bool.or_eq_true]
      exact or_congr Iff.rfl (ih h.2)

theorem get?_eq_none (h : Agrees names scopes) {name : String}
    (hname : names.declares name = false) :
    scopes.get? name = none := by
  rw [← Option.not_isSome_iff_eq_none, ← h.get? name, hname]
  exact Bool.false_ne_true

theorem declare (h : Agrees names scopes) (name : String) (v : Value) :
    Agrees (names.declare name) (scopes.declare name v) := by
  match names, scopes, h with
  | [], [], _ => trivial
  | block :: names, scope :: scopes, h =>
    refine ⟨fun other => ?_, h.2⟩
    rw [Scope.isSome_get?_put, Bool.or_eq_true, decide_eq_true_iff, ← h.1 other, List.mem_cons]
    exact or_congr eq_comm Iff.rfl

/-- An assignment changes a variable that a scope has. -/
theorem assign (h : Agrees names scopes) {name : String} {v : Value} {changed : Scopes}
    (hassign : scopes.assign name v = some changed) : Agrees names changed := by
  induction names generalizing scopes changed with
  | nil =>
    cases scopes with
    | nil => cases hassign
    | cons => exact h.elim
  | cons block names ih =>
    cases scopes with
    | nil => exact h.elim
    | cons scope scopes =>
      rw [Scopes.assign] at hassign
      split at hassign
      · rename_i hscope
        obtain rfl := Option.some.inj hassign
        refine ⟨fun other => ?_, h.2⟩
        rw [Scope.isSome_get?_put, Bool.or_eq_true, decide_eq_true_iff, h.1 other]
        exact ⟨Or.inr, fun hor => hor.elim (fun heq => heq ▸ hscope) id⟩
      · obtain ⟨inner, hinner, rfl⟩ := Option.map_eq_some_iff.mp hassign
        exact ⟨h.1, ih h.2 hinner⟩

theorem tail (h : Agrees names scopes) : Agrees names.tail (scopes.drop 1) := by
  match names, scopes, h with
  | [], [], _ => trivial
  | _ :: _, _ :: _, h => exact h.2

end Agrees

/-! ## Steps that keep scopes and names together -/

/-- From scopes that agree with `names`, a step that ends well leads to scopes that agree with
`after`. -/
def Brings {α : Type} (names : Names) (m : Run α) (after : Names) : Prop :=
  Run.Triple (fun s => Agrees names s.scopes) m (fun _ t => Agrees after t.scopes) fun _ _ => True

variable {names : Names} {g : Environment} {fuel : Nat}

theorem Brings.ofScopes {α : Type} {m : Run α} (h : ∀ s, (m s).2.scopes = s.scopes) :
    Brings names m names := by
  intro s hs
  have hsame := h s
  match hm : m s with
  | (.done _, _) =>
    rw [hm] at hsame
    show Agrees names _
    rw [show _ = s.scopes from hsame]
    exact hs
  | (.failed _, _) | (.unfinished _, _) => trivial

theorem eval_brings (g : Environment) (e : Expr) : Brings names (eval g e) names :=
  .ofScopes (scopes_acting.eval g e fun _ _ => trivial)

theorem evalCondition_brings (g : Environment) (e : Expr) :
    Brings names (evalCondition g e) names :=
  .ofScopes (scopes_acting.evalCondition g e fun _ _ => trivial)

theorem onLine_brings {α : Type} (line : Nat) (r : Except Fault α) :
    Brings names (Run.onLine line r) names :=
  .ofScopes (scopes_acting.onLine trivial r)

theorem assign_brings (line : Nat) (name : String) (v : Value) :
    Brings names (assign line name v) names := by
  intro s hs
  rw [assign_apply]
  cases hassign : s.scopes.assign name v with
  | some changed => exact Agrees.assign hs hassign
  | none => trivial

/-! ## Scripts that declare no global name -/

namespace Node

/-- The name that a node gives to a variable. -/
def binds? : Node → Option String
  | stmt (.declare _ name _) | stmt (.each _ name _ _) => some name
  | _ => none

/-- A node as the grammar has it, which gives a variable no global name. -/
structure Quiet (node : Node) : Prop where
  formed : node.Formed fun _ => True
  bound : ∀ name, node.binds? = some name → Global.isName name = false

end Node

/-- Behind a block or a condition the same names are known as before it. -/
theorem checkStmt_alternative {st : Stmt} (h : st.isAlternative = true) :
    (checkStmt names st).2 = names := by
  cases st with
  | block | branch => rfl
  | _ => exact nomatch h

theorem inScope_brings {body : Run Unit} {block : List String} {scope : Scope}
    (hscope : ∀ name, name ∈ block ↔ (scope.get? name).isSome)
    (hbody : Run.Triple (fun s => Agrees (block :: names) s.scopes) body
      (fun _ t => Agrees names (t.scopes.drop 1)) fun _ _ => True) :
    Brings names (Run.inScope scope body) names := by
  refine Run.Triple.inScope (hbody.weaken ?_ (fun _ _ h => h) (fun _ _ h => h))
  rintro _ ⟨s, hs, rfl⟩
  exact ⟨hscope, hs⟩

mutual

theorem exec_brings {names : Names} (g : Environment) (fuel : Nat) {st : Stmt}
    (h : (Node.stmt st).Everywhere Node.Quiet names) :
    Brings names (exec g fuel st) (checkStmt names st).2 := by
  cases st with
  | declare line name value =>
    have hname : ¬Global.isName name = true :=
      Bool.eq_false_iff.mp (h.here.bound name rfl)
    refine Run.Triple.bind (eval_brings g value) fun v s hs => ?_
    show Agrees (declared names name) (s.scopes.declare name v)
    rw [declared, if_neg hname]
    exact hs.declare name v
  | assign line name value =>
    exact Run.Triple.bind (eval_brings g value) fun v => assign_brings line name v
  | evaluate line e => exact Run.Triple.bind (eval_brings g e) fun _ => .pure fun _ hs => hs
  | branch line cond body other =>
    refine Run.Triple.bind (evalCondition_brings g cond) fun b => ?_
    cases b with
    | true => exact inScope_brings fresh_scope (execAll_brings g fuel (h.inside (i := 1) rfl))
    | false =>
      cases other with
      | none => exact .pure fun _ hs => hs
      | some st =>
        have hst := exec_brings g fuel (h.inside (i := 2) rfl)
        rwa [checkStmt_alternative h.here.formed] at hst
  | loop line cond body =>
    exact Run.Triple.whileTrue fuel (evalCondition_brings g cond)
      (inScope_brings fresh_scope (execAll_brings g fuel (h.inside (i := 1) rfl)))
  | each line name items body =>
    refine Run.Triple.bind (eval_brings g items) fun v => ?_
    refine Run.Triple.bind (onLine_brings items.line v.elements) fun vs => ?_
    exact Run.Triple.forEach vs fun w => inScope_brings (item_scope name w)
      (execAll_brings g fuel (h.inside (i := 1) rfl))
  | block line body =>
    exact inScope_brings fresh_scope (execAll_brings g fuel (h.inside (i := 0) rfl))
  | checkpoint line name body =>
    have hbody := inScope_brings fresh_scope (execAll_brings g fuel (h.inside (i := 0) rfl))
    exact Run.Triple.checkpoint (fun _ hs => hs) hbody

theorem execAll_brings {names : Names} (g : Environment) (fuel : Nat) {ss : List Stmt}
    (h : (Node.stmts ss).Everywhere Node.Quiet names) :
    Run.Triple (fun s => Agrees names s.scopes) (execAll g fuel ss)
      (fun _ t => Agrees names.tail (t.scopes.drop 1)) fun _ _ => True := by
  cases ss with
  | nil => exact .pure fun _ hs => hs.tail
  | cons st ss =>
    refine Run.Triple.bind (exec_brings g fuel (h.inside (i := 0) rfl)) fun _ => ?_
    have hrest := execAll_brings g fuel (h.inside (i := 1) rfl)
    rwa [checkStmt_tail] at hrest

end

/-! ## Occurrences that a run comes to -/

theorem Starts.agrees {node : Node} {i : Nat} {s t : Session} (h : Starts g fuel node s i t)
    {child : Names × Node} (hchild : (node.children names)[i]? = some child)
    (hquiet : node.Everywhere Node.Quiet names) (hs : Agrees names s.scopes) :
    Agrees child.1 t.scopes := by
  have block {body : List Stmt} (h : (Node.stmts body).Everywhere Node.Quiet ([] :: names)) :
      Brings names (Run.inScope [] (execAll g fuel body)) names :=
    inScope_brings fresh_scope (execAll_brings g fuel h)
  cases h with
  | items | operand | left | holder | indexed | args | object | first | declared | assigned
  | evaluated | cond | eachItems | head =>
    obtain rfl := Option.some.inj hchild
    exact hs
  | right he _ | index he | methodArgs he | others he =>
    obtain rfl := Option.some.inj hchild
    exact (eval_brings g _).done hs he
  | body he =>
    obtain rfl := Option.some.inj hchild
    exact ⟨fresh_scope, (evalCondition_brings g _).done hs he⟩
  | other he =>
    obtain rfl := Option.some.inj hchild
    exact (evalCondition_brings g _).done hs he
  | loopCond hrounds =>
    obtain rfl := Option.some.inj hchild
    exact hrounds.keeps (evalCondition_brings g _) (block (hquiet.inside (i := 1) rfl)) hs
  | loopBody hrounds he =>
    obtain rfl := Option.some.inj hchild
    have hround :=
      hrounds.keeps (evalCondition_brings g _) (block (hquiet.inside (i := 1) rfl)) hs
    exact ⟨fresh_scope, (evalCondition_brings g _).done hround he⟩
  | eachBody he hv hrounds =>
    obtain rfl := Option.some.inj hchild
    have hitems : Agrees names _ := (eval_brings g _).done hs he
    exact ⟨item_scope _ _, hrounds.keeps (fun w => inScope_brings (item_scope _ w)
      (execAll_brings g fuel (hquiet.inside (i := 1) rfl))) hitems⟩
  | block | checkpoint =>
    obtain rfl := Option.some.inj hchild
    exact ⟨fresh_scope, hs⟩
  | tail hst =>
    obtain rfl := Option.some.inj hchild
    exact (exec_brings g fuel (hquiet.inside (i := 0) rfl)).done hs hst

/-- Wherever a run comes to, the names that `resolve` knows there are those of the variables. -/
theorem Arrives.agrees {p : Program} {s t : Session} {path : List Nat}
    (h : Arrives g fuel p s path t) (hs : s.scopes = [])
    (hquiet : (Node.stmts p.stmts).Everywhere Node.Quiet [[]]) {place : Names × Node}
    (hplace : p.nodeAt? path = some place) : Agrees place.1 t.scopes := by
  induction h generalizing place with
  | start =>
    obtain rfl := Option.some.inj hplace
    exact ⟨fresh_scope, by rw [hs]; trivial⟩
  | into _ hparent hstarts ih =>
    obtain ⟨child, hchild⟩ := hstarts.child _
    obtain rfl := Option.some.inj ((nodeAt?_snoc hparent hchild).symm.trans hplace)
    exact hstarts.agrees hchild (hquiet.below hparent) (ih hparent)

/-! ## Names that are not global -/

/-- No block declares a global name. -/
def Names.Local (names : Names) : Prop :=
  ∀ name, names.declares name = true → Global.isName name = false

namespace Names.Local

theorem nil : Local [[]] := fun _ h => nomatch h

theorem enter (h : names.Local) {block : List String}
    (hblock : ∀ name ∈ block, Global.isName name = false) : Local (block :: names) := by
  intro name hname
  rw [Names.declares, List.any_cons, Bool.or_eq_true, List.contains_iff_mem] at hname
  exact hname.elim (hblock name) (h name)

theorem declared (h : names.Local) (name : String) : Local (declared names name) := by
  unfold Script.declared
  split
  · exact h
  · rename_i hglobal
    cases names with
    | nil => exact h
    | cons block names =>
      refine enter (fun other hother => h other ?_) fun other hother => ?_
      · rw [Names.declares, List.any_cons]
        exact Bool.or_eq_true_iff.mpr (.inr hother)
      · rcases List.mem_cons.mp hother with rfl | hblock
        · exact Bool.eq_false_iff.mpr hglobal
        · refine h other ?_
          rw [Names.declares, List.any_cons, Bool.or_eq_true, List.contains_iff_mem]
          exact .inl hblock

end Names.Local

theorem Node.children_local {node : Node} (hquiet : node.Quiet) (h : names.Local)
    {child : Names × Node} (hchild : child ∈ node.children names) : child.1.Local := by
  have hfresh : Names.Local ([] :: names) := h.enter (List.forall_mem_nil _)
  match node with
  | expr e => cases e <;> simp [children] at hchild <;> grind
  | exprs es => cases es <;> simp [children] at hchild <;> grind
  | stmt st =>
    cases st with
    | each line name items body =>
      have hname := h.enter (List.forall_mem_singleton.mpr (hquiet.bound name rfl))
      simp [children] at hchild
      grind
    | _ => simp [children] at hchild <;> grind
  | stmts ss =>
    cases ss with
    | nil => exact nomatch hchild
    | cons st ss =>
      rcases List.mem_cons.mp hchild with rfl | hrest
      · exact h
      · obtain rfl := List.mem_singleton.mp hrest
        cases st with
        | declare line name value => exact h.declared name
        | _ => exact h

theorem Node.nodeAt?_local {node : Node} {path : List Nat} {place : Names × Node}
    (hquiet : node.Everywhere Node.Quiet names) (h : names.Local)
    (hplace : node.nodeAt? names path = some place) : place.1.Local := by
  induction path generalizing names node with
  | nil =>
    obtain rfl := Option.some.inj hplace
    exact h
  | cons i path ih =>
    obtain ⟨child, hchild, hinner⟩ := nodeAt?_cons.mp hplace
    exact ih (hquiet.inside hchild)
      (children_local hquiet.here h (List.mem_of_getElem? hchild)) hinner

/-! ## What reports say of a run -/

/-- The fault that a report of a missing name, function or method foretells. -/
def Problem.fault? : Problem → Option Fault
  | .undeclared name | .notCalled name => some (.undeclared name)
  | .assignedUndeclared name | .assignedGlobal name => some (.assignedUndeclared name)
  | .unknownFunction name => some (.unknownFunction name)
  | .unknownMethod name => some (.unknownMethod name)
  | _ => none

/-- `Due g node t u`: a node that is run from `t` has evaluated in `u` all that it evaluates
before it looks at its own name. -/
inductive Due (g : Environment) : Node → Session → Session → Prop where
  | ident {p : Position} {name : String} {t : Session} : Due g (.expr (.ident p name)) t t
  | call {p : Position} {name : String} {args : List Expr} {vs : List Value} {t u : Session}
      (hargs : evalAll g args t = (.done vs, u)) : Due g (.expr (.call p name args)) t u
  | method {p : Position} {object : Expr} {name : String} {args : List Expr} {v : Value}
      {vs : List Value} {t u w : Session} (hobject : eval g object t = (.done v, u))
      (hargs : evalAll g args u = (.done vs, w)) :
      Due g (.expr (.method p object name args)) t w
  | assign {line : Nat} {name : String} {value : Expr} {v : Value} {t u : Session}
      (hvalue : eval g value t = (.done v, u)) : Due g (.stmt (.assign line name value)) t u

theorem mem_at? {p : Position} {problem : Option Problem} {d : Diagnostic} :
    d ∈ at? p problem ↔ d.place = p ∧ problem = some d.problem := by
  cases problem with
  | none => simp [at?]
  | some q =>
    rw [at?, Option.map_some, Option.toList_some, List.mem_singleton, Option.some_inj]
    exact ⟨fun h => h ▸ ⟨rfl, rfl⟩, fun h => by cases d; cases h.1; cases h.2; rfl⟩

theorem lookup_fails {line : Nat} {name : String} {s : Session} (hname : s.scopes.get? name = none)
    (hglobal : Global.isName name = false) :
    lookup g line name s = (.failed (.script line (.undeclared name) []), s) := by
  have hvalue : globalValue g name = .error (.undeclared name) := by
    unfold globalValue
    rw [Option.not_isSome_iff_eq_none.mp (Bool.eq_false_iff.mp hglobal)]
  unfold lookup
  rw [Run.bind_apply]
  simp only [Run.scopes, hname, hvalue]
  rfl

section Reports

variable {name : String} {given : Nat} {problem : Problem} {fault : Fault}

theorem undeclared_of_report (h : problemOfName names name = some problem)
    (hfault : problem.fault? = some fault) :
    names.declares name = false ∧ Global.isName name = false ∧ fault = .undeclared name := by
  unfold problemOfName at h
  split at h
  · cases h
  · rename_i hknown
    rw [Bool.or_eq_true, not_or, Bool.not_eq_true, Bool.not_eq_true] at hknown
    split at h <;> obtain rfl := Option.some.inj h <;>
      exact ⟨hknown.1, hknown.2, (Option.some.inj hfault).symm⟩

theorem unassigned_of_report (hlocal : names.Local)
    (h : problemOfAssignment names name = some problem) (hfault : problem.fault? = some fault) :
    names.declares name = false ∧ fault = .assignedUndeclared name := by
  unfold problemOfAssignment at h
  split at h
  · rename_i hglobal
    obtain rfl := Option.some.inj h
    refine ⟨Bool.eq_false_iff.mpr fun hname => ?_, (Option.some.inj hfault).symm⟩
    exact Bool.eq_false_iff.mp (hlocal name hname) hglobal
  · split at h
    · cases h
    · rename_i hname
      obtain rfl := Option.some.inj h
      exact ⟨Bool.eq_false_iff.mpr hname, (Option.some.inj hfault).symm⟩

theorem unknown_of_callReport (h : problemOfCall name given = some problem)
    (hfault : problem.fault? = some fault) :
    Builtin.ofName? name = none ∧ fault = .unknownFunction name := by
  unfold problemOfCall at h
  split at h
  · rename_i hname
    obtain rfl := Option.some.inj h
    exact ⟨hname, (Option.some.inj hfault).symm⟩
  · split at h
    · cases h
    · obtain rfl := Option.some.inj h
      cases hfault

theorem unknown_of_methodReport (h : problemOfMethod name given = some problem)
    (hfault : problem.fault? = some fault) :
    Method.ofName? name = none ∧ fault = .unknownMethod name := by
  unfold problemOfMethod at h
  split at h
  · rename_i hname
    obtain rfl := Option.some.inj h
    exact ⟨hname, (Option.some.inj hfault).symm⟩
  · split at h
    · cases h
    · obtain rfl := Option.some.inj h
      cases hfault

/-- Where a node has a report of a missing name, function or method, its step fails with it. -/
theorem Due.fails {node : Node} {t u : Session} (h : Due g node t u) (hlocal : names.Local)
    (hagrees : Agrees names t.scopes) {d : Diagnostic} (hd : d ∈ node.own names)
    (hfault : d.problem.fault? = some fault) :
    node.run g fuel t = (.failed (.script d.place.line fault []), u) := by
  cases h with
  | ident =>
    obtain ⟨hplace, hproblem⟩ := mem_at?.mp hd
    obtain ⟨hname, hglobal, rfl⟩ := undeclared_of_report hproblem hfault
    rw [hplace]
    exact bind_failed (lookup_fails (hagrees.get?_eq_none hname) hglobal) _
  | call hargs =>
    obtain ⟨hplace, hproblem⟩ := mem_at?.mp hd
    obtain ⟨hname, rfl⟩ := unknown_of_callReport hproblem hfault
    rw [hplace]
    refine bind_failed ((bind_done hargs _).trans ?_) _
    rw [Script.call, hname]
    rfl
  | method hobject hargs =>
    obtain ⟨hplace, hproblem⟩ := mem_at?.mp hd
    obtain ⟨hname, rfl⟩ := unknown_of_methodReport hproblem hfault
    rw [hplace]
    refine bind_failed ((bind_done hobject _).trans ((bind_done hargs _).trans ?_)) _
    rw [methodCall, hname]
    rfl
  | assign hvalue =>
    obtain ⟨hplace, hproblem⟩ := mem_at?.mp hd
    obtain ⟨hname, rfl⟩ := unassigned_of_report hlocal hproblem hfault
    have hscopes := (eval_brings g _).done hagrees hvalue
    rw [hplace]
    refine (bind_done hvalue _).trans ?_
    rw [assign_apply, Scopes.assign_eq_none (hscopes.get?_eq_none hname)]

end Reports

/-! ## Alarms -/

/-- What `resolve` reports belongs to an occurrence in the script.  In a script that declares no
global name, the names that it knows at an occurrence are those of the variables whenever a run
comes there, also a run of a script with reports.  Where it reports a name that is not declared,
not called or not to be assigned, or a function or method that does not exist, the run fails on
the reported line as soon as it has evaluated what stands before that name. -/
theorem alarms_fail {tokens : List Token} {finish : Token} {p : Program}
    (htokens : ∀ t ∈ tokens, t.kind ≠ .finish) (hfinish : finish.kind = .finish)
    (hparse : parse (tokens ++ [finish]) = (p, []))
    (hglobals : ∀ path names node name, p.nodeAt? path = some (names, node) →
      node.binds? = some name → Global.isName name = false) :
    (∀ d, d ∈ resolve p ↔
      ∃ path names node, p.nodeAt? path = some (names, node) ∧ d ∈ node.own names) ∧
    ∀ (g : Environment) (fuel : Nat) (s : Session), s.scopes = [] →
      ∀ path t, Arrives g fuel p s path t →
        ∃ names node, p.nodeAt? path = some (names, node) ∧
          (∀ name, names.declares name = true ↔ (t.scopes.get? name).isSome) ∧
          ∀ d ∈ node.own names, ∀ fault u, d.problem.fault? = some fault → Due g node t u →
            node.run g fuel t = (.failed (.script d.place.line fault []), u) ∧
            ∃ checkpoints,
              (run g fuel p s).1 = .failed (.script d.place.line fault checkpoints) := by
  have hquiet : (Node.stmts p.stmts).Everywhere Node.Quiet [[]] := fun path place hplace =>
    ⟨formed_of_parse htokens hfinish hparse (fun _ _ _ _ => trivial) hplace,
      fun name => hglobals path place.1 place.2 name hplace⟩
  refine ⟨fun d => ?_, fun g fuel s hs path t harrives => ?_⟩
  · rw [mem_resolve_iff]
    exact ⟨fun ⟨path, ⟨names, node⟩, h⟩ => ⟨path, names, node, h⟩,
      fun ⟨path, names, node, h⟩ => ⟨path, ⟨names, node⟩, h⟩⟩
  · obtain ⟨⟨names, node⟩, hplace⟩ := harrives.exists_place
    have hagrees : Agrees names t.scopes := harrives.agrees hs hquiet hplace
    refine ⟨names, node, hplace, hagrees.get?, fun d hd fault u hfault hdue => ?_⟩
    have hfails : node.run g fuel t = (.failed (.script d.place.line fault []), u) :=
      hdue.fails (Node.nodeAt?_local hquiet .nil hplace) hagrees hd hfault
    obtain ⟨left, hrun⟩ := harrives.fails hplace hfails
    exact ⟨hfails, left, hrun⟩

/-- A global name that a node declares is reported there. -/
theorem Node.global_reported {node : Node} {name : String} (hname : node.binds? = some name)
    (hglobal : Global.isName name = true) :
    ∃ d ∈ node.own names, d.problem = .redeclaredGlobal name := by
  match node with
  | stmt (.declare line _ _) | stmt (.each line _ _ _) =>
    obtain rfl := Option.some.inj hname
    refine ⟨⟨⟨line, 1⟩, .redeclaredGlobal _⟩, mem_at?.mpr ⟨rfl, ?_⟩, rfl⟩
    exact if_pos hglobal

/-- A script whose second line assigns a variable that was never declared. -/
def forgotten : String := "let a = 1;\ncheckpoint \"late\" \x7b b = a; \x7d\n"

namespace Forgotten

def tokens : List Token :=
  [⟨.letWord, ⟨1, 1⟩⟩, ⟨.ident "a", ⟨1, 5⟩⟩, ⟨.equal, ⟨1, 7⟩⟩, ⟨.int 1, ⟨1, 9⟩⟩,
    ⟨.semicolon, ⟨1, 10⟩⟩, ⟨.checkpointWord, ⟨2, 1⟩⟩, ⟨.str "late", ⟨2, 12⟩⟩,
    ⟨.leftBrace, ⟨2, 19⟩⟩, ⟨.ident "b", ⟨2, 21⟩⟩, ⟨.equal, ⟨2, 23⟩⟩, ⟨.ident "a", ⟨2, 25⟩⟩,
    ⟨.semicolon, ⟨2, 26⟩⟩, ⟨.rightBrace, ⟨2, 28⟩⟩]

def program : Program :=
  ⟨[.declare 1 "a" (.int ⟨1, 9⟩ 1),
    .checkpoint 2 "late" [.assign 2 "b" (.ident ⟨2, 25⟩ "a")]]⟩

/-- The session behind the declaration. -/
def begun : Session := { silent with scopes := [[("a", .int 1)]] }

theorem parse_tokens : parse (tokens ++ [⟨.finish, ⟨3, 1⟩⟩]) = (program, []) := by
  with_unfolding_all rfl

theorem resolve_program : resolve program = [⟨⟨2, 1⟩, .assignedUndeclared "b"⟩] := by
  decide +kernel

/-- What declares a global name would have been reported. -/
theorem no_globals (path : List Nat) (names : Names) (node : Node) (name : String)
    (hnode : program.nodeAt? path = some (names, node)) (hname : node.binds? = some name) :
    Global.isName name = false := by
  refine Bool.eq_false_iff.mpr fun hglobal => ?_
  obtain ⟨d, hd, hproblem⟩ := Node.global_reported hname hglobal
  have hreported := mem_resolve_iff.mpr ⟨path, _, hnode, hd⟩
  rw [resolve_program, List.mem_singleton] at hreported
  rw [hreported] at hproblem
  cases hproblem

end Forgotten

open Forgotten in
theorem alarms_fail_forgotten :
    ∃ tokens finish p, (tokenize forgotten).1 = tokens ++ [finish] ∧
      parse (tokens ++ [finish]) = (p, []) ∧
      resolve p = [⟨⟨2, 1⟩, .assignedUndeclared "b"⟩] ∧
      ∃ checkpoints,
        (run quiet 0 p silent).1 = .failed (.script 2 (.assignedUndeclared "b") checkpoints) := by
  have hwords : (tokenize forgotten).1 = tokens ++ [⟨.finish, ⟨3, 1⟩⟩] := by decide +kernel
  obtain ⟨-, halarms⟩ := alarms_fail (by decide) rfl parse_tokens no_globals
  -- past the declaration, into the checkpoint, to its first statement
  have harrives : Arrives quiet 0 program silent [1, 0, 0, 0] ((begun.mark "late").enter []) :=
    .into (.into (.into (.into .start rfl (.tail (t := begun) rfl)) rfl .head) rfl .checkpoint)
      rfl .head
  obtain ⟨names, node, hnode, -, hreports⟩ := halarms quiet 0 silent rfl _ _ harrives
  obtain ⟨rfl, rfl⟩ := Prod.mk.inj (Option.some.inj hnode)
  obtain ⟨-, hrun⟩ := hreports _ List.mem_cons_self _ _ rfl
    (.assign (v := .int 1) (u := (begun.mark "late").enter []) rfl)
  exact ⟨tokens, _, program, hwords, parse_tokens, resolve_program, hrun⟩

end Script
end CheckScript
