/-
Scripts that compile never miss a name or an argument.

`resolve` walks through a script once, with the names that each open block declares;
a run walks through it as its values say, with the variables of each open block.  The
two walks are tied by `Covers`: whatever block a run is in, each name that `resolve`
knew there has a value in the scope of its own block.  Statements keep this up
(`exec_resolves`), so no run of a compiled script raises a static fault, whatever the
debugger does and however often its loops go round (`run_resolved`).
-/
import CheckScript.Proofs.Decision
import CheckScript.Proofs.Script.Blame
import CheckScript.Proofs.Script.Compile
import CheckScript.Proofs.Script.Dynamic

namespace CheckScript

/-- Failures that the names and the calls of a script decide. -/
def Failure.isStatic : Failure → Bool
  | .script _ fault _ => fault.isStatic
  | _ => false

/-- What no line of the script is blamed for is not up to its names and calls. -/
theorem Failure.isStatic_of_outside {f : Failure} (h : f.scriptLine? = none) :
    f.isStatic = false := by
  cases f with
  | script => exact nomatch h
  | _ => rfl

theorem Failure.isStatic_inCheckpoint (name : String) (f : Failure) :
    (f.inCheckpoint name).isStatic = f.isStatic := by
  cases f <;> rfl

namespace Script

/-! ## Scopes that cover names -/

/-- Each name that a block declares has a value in the scope of that block.  Scopes may
hold more variables, and there may be more of them. -/
def Covers : Names → Scopes → Prop
  | [], _ => True
  | _ :: _, [] => False
  | block :: names, scope :: scopes =>
    (∀ name ∈ block, (scope.get? name).isSome) ∧ Covers names scopes

theorem Scope.get?_put (s : Scope) (name other : String) (v : Value) :
    (s.put name v).get? other = if name = other then some v else s.get? other := by
  induction s with
  | nil => rfl
  | cons entry rest ih =>
    obtain ⟨n, w⟩ := entry
    rw [put]
    split
    · rename_i hn
      subst hn
      rw [get?, get?]
      split <;> rfl
    · rename_i hn
      rw [get?, get?, ih]
      split
      · rename_i hother
        rw [if_neg (hother ▸ fun h => hn h.symm)]
      · rfl

theorem Scope.isSome_get?_put (s : Scope) (name other : String) (v : Value) :
    ((s.put name v).get? other).isSome = (decide (name = other) || (s.get? other).isSome) := by
  rw [Scope.get?_put]
  by_cases h : name = other <;> simp [h]

namespace Covers

theorem get? {names : Names} {scopes : Scopes} {name : String} (h : Covers names scopes)
    (hname : names.declares name = true) : (scopes.get? name).isSome := by
  induction names generalizing scopes with
  | nil => cases hname
  | cons block names ih =>
    cases scopes with
    | nil => exact h.elim
    | cons scope scopes =>
      rw [Names.declares, List.any_cons, Bool.or_eq_true] at hname
      rw [Scopes.get?, Option.isSome_or, Bool.or_eq_true]
      rcases hname with hblock | hnames
      · exact Or.inl (h.1 name (List.contains_iff_mem.mp hblock))
      · exact Or.inr (ih h.2 hnames)

theorem declare {names : Names} {scopes : Scopes} (h : Covers names scopes) (name : String)
    (v : Value) : Covers (names.declare name) (scopes.declare name v) := by
  cases names with
  | nil => trivial
  | cons block names =>
    cases scopes with
    | nil => exact h.elim
    | cons scope scopes =>
      refine ⟨fun other hother => ?_, h.2⟩
      rw [Scope.isSome_get?_put, Bool.or_eq_true]
      rcases List.mem_cons.mp hother with rfl | hother
      · exact Or.inl (decide_eq_true rfl)
      · exact Or.inr (h.1 other hother)

/-- A known name can be assigned, and assignments keep all names known. -/
theorem assign {names : Names} {scopes : Scopes} {name : String} (h : Covers names scopes)
    (hname : names.declares name = true) (v : Value) :
    ∃ changed, scopes.assign name v = some changed ∧ Covers names changed := by
  induction names generalizing scopes with
  | nil => cases hname
  | cons block names ih =>
    cases scopes with
    | nil => exact h.elim
    | cons scope scopes =>
      rw [Scopes.assign]
      by_cases hscope : (scope.get? name).isSome
      · rw [if_pos hscope]
        refine ⟨_, rfl, fun other hother => ?_, h.2⟩
        rw [Scope.isSome_get?_put, Bool.or_eq_true]
        exact Or.inr (h.1 other hother)
      · rw [if_neg hscope]
        have hnames : Names.declares names name = true := by
          rw [Names.declares, List.any_cons, Bool.or_eq_true] at hname
          rcases hname with hblock | hnames
          · exact absurd (h.1 name (List.contains_iff_mem.mp hblock)) hscope
          · exact hnames
        obtain ⟨changed, hassign, hcovers⟩ := ih h.2 hnames
        exact ⟨scope :: changed, by rw [hassign]; rfl, h.1, hcovers⟩

end Covers

/-! ## Steps that raise no static fault -/

/-- From scopes that cover `names`, a step leads to scopes that cover `after`, unless it
fails, and then its failure is not static. -/
def Resolves {α : Type} (names : Names) (m : Run α) (after : Names) : Prop :=
  Run.Triple (fun s => Covers names s.scopes) m (fun _ t => Covers after t.scopes)
    fun f _ => f.isStatic = false

variable {α β : Type} {names after : Names}

namespace Resolves

theorem pure (a : α) : Resolves names (Pure.pure a) names := Run.Triple.pure fun _ h => h

theorem bind {m : Run β} {k : β → Run α} (hm : Resolves names m names)
    (hk : ∀ b, Resolves names (k b) after) : Resolves names (m >>= k) after :=
  Run.Triple.bind hm hk

theorem fail {f : Failure} (h : f.isStatic = false) :
    Resolves names (Run.fail f : Run α) names :=
  Run.Triple.fail fun _ _ => h

theorem onLine (line : Nat) {r : Except Fault α} (h : Dynamic r) :
    Resolves names (Run.onLine line r) names :=
  Run.Triple.onLine (fun _ _ _ hs => hs) fun f hf _ _ => h f hf

/-- A step that leaves the scopes alone and fails for other reasons than the names and
calls of the script. -/
theorem ofFrame {m : Run α} (hscopes : ∀ s, (m s).2.scopes = s.scopes)
    (hfault : ∀ s f t, m s = (.failed f, t) → f.isStatic = false) : Resolves names m names := by
  intro s hs
  have hsame := hscopes s
  match hr : m s with
  | (.done a, t) =>
    rw [hr] at hsame
    show Covers names t.scopes
    rw [show t.scopes = s.scopes from hsame]
    exact hs
  | (.failed f, t) => exact hfault s f t hr
  | (.unfinished _, _) => trivial

theorem note (text : String) : Resolves names (Run.note text) names :=
  ofFrame (fun _ => rfl) fun _ _ _ h => nomatch h

end Resolves

/-! ## Functions -/

theorem send_resolves (text : String) : Resolves names (Run.send text) names :=
  Resolves.ofFrame (fun _ => rfl) fun _ _ _ h => Failure.isStatic_of_outside (send_blames_none h)

theorem expect_resolves (line : Nat) (wanted : String) (timeout : Duration) :
    Resolves names (Run.expect line wanted timeout) names := by
  refine Resolves.ofFrame (fun s => ?_)
    fun _ _ _ h => Failure.isStatic_of_outside (expect_blames_none h)
  unfold Run.expect
  split <;> rfl

theorem buildDelta_resolves (g : Environment) (source target : String) :
    Resolves names (Run.buildDelta g source target) names := by
  refine Resolves.ofFrame (fun s => ?_)
    fun _ _ _ h => Failure.isStatic_of_outside (buildDelta_blames_none h)
  unfold Run.buildDelta
  split <;> rfl

theorem timeoutOf_dynamic (default : Duration) (v : Option Value) :
    Dynamic (timeoutOf default v) := by
  unfold timeoutOf
  split
  · exact dynamic_ok _
  · split
    · exact dynamic_ok _
    · exact dynamic_error rfl
  · exact dynamic_error rfl

theorem assertTrue_resolves (line : Nat) {args : List Value} (h : 0 < args.length) :
    Resolves names (assertTrue line args) names := by
  unfold assertTrue
  rw [List.getElem?_eq_getElem h]
  split
  · rename_i hnone
    cases hnone
  · exact Resolves.pure _
  · exact Resolves.fail rfl
  · exact Resolves.onLine line (dynamic_error rfl)

theorem assertEqual_resolves (line : Nat) (wanted : Bool) (function : String) {args : List Value}
    (h : 1 < args.length) : Resolves names (assertEqual line wanted function args) names := by
  have hexpected : Dynamic (argument function args 1) :=
    argument_dynamic (show 0 < args.length by omega)
  have hactual : Dynamic (argument function args 2) := argument_dynamic h
  refine Resolves.bind (Resolves.onLine line hexpected) (fun expected => ?_)
  refine Resolves.bind (Resolves.onLine line hactual) (fun actual => ?_)
  simp only
  split
  · exact Resolves.pure _
  · split <;> exact Resolves.fail rfl

/-- A function that gets as many arguments as its table entry says never misses one. -/
theorem callBuiltin_resolves (g : Environment) (line : Nat) {b : Builtin} {args : List Value}
    (h : b.arity.accepts args.length = true) :
    Resolves names (callBuiltin g line b args) names := by
  cases b with
  | send =>
    have hlen : args.length = 1 := exactly_accepts.mp h
    refine Resolves.bind (Resolves.onLine line (stringArgument_dynamic (by omega))) (fun text => ?_)
    exact Resolves.bind (send_resolves text) (fun _ => Resolves.pure _)
  | expect =>
    have hlen : 1 ≤ args.length ∧ args.length ≤ 2 := between_accepts.mp h
    refine Resolves.bind (Resolves.onLine line (stringArgument_dynamic (by omega)))
      (fun wanted => ?_)
    refine Resolves.bind (Resolves.onLine line (timeoutOf_dynamic g.timeout _)) (fun timeout => ?_)
    exact Resolves.bind (expect_resolves line wanted timeout) (fun _ => Resolves.pure _)
  | assert =>
    have hlen : 1 ≤ args.length ∧ args.length ≤ 2 := between_accepts.mp h
    exact assertTrue_resolves line (by omega)
  | assertEq | assertNe =>
    have hlen : 2 ≤ args.length ∧ args.length ≤ 3 := between_accepts.mp h
    exact assertEqual_resolves line _ _ (by omega)
  | log => exact Resolves.bind (Resolves.note _) (fun _ => Resolves.pure _)
  | format =>
    have hlen : 1 ≤ args.length := atLeast_accepts.mp h
    refine Resolves.bind (Resolves.onLine line (stringArgument_dynamic (by omega)))
      (fun template => ?_)
    refine Resolves.bind (Resolves.onLine line ?_) (fun _ => Resolves.pure _)
    exact dynamic_map _ (fill_dynamic _ _)
  | int =>
    have hlen : args.length = 1 := exactly_accepts.mp h
    exact Resolves.onLine line (dynamic_bind (argument_dynamic (by omega))
      (fun v _ => toInt_dynamic v))
  | str =>
    have hlen : args.length = 1 := exactly_accepts.mp h
    exact Resolves.bind (Resolves.onLine line (argument_dynamic (by omega)))
      (fun _ => Resolves.pure _)
  | len =>
    have hlen : args.length = 1 := exactly_accepts.mp h
    exact Resolves.bind (Resolves.onLine line (dynamic_bind (argument_dynamic (by omega))
      (fun v _ => length_dynamic v))) (fun _ => Resolves.pure _)
  | line =>
    have hlen : args.length = 1 := exactly_accepts.mp h
    refine Resolves.bind (Resolves.onLine line (stringArgument_dynamic (by omega))) (fun tag => ?_)
    split
    · exact Resolves.onLine line (dynamic_error rfl)
    · exact Resolves.pure _
  | fileName =>
    have hlen : args.length = 1 := exactly_accepts.mp h
    refine Resolves.bind (Resolves.onLine line (stringArgument_dynamic (by omega))) (fun path => ?_)
    split
    · exact Resolves.onLine line (dynamic_error rfl)
    · exact Resolves.pure _
  | buildDelta =>
    have hlen : args.length = 2 := exactly_accepts.mp h
    refine Resolves.bind (Resolves.onLine line (stringArgument_dynamic (by omega)))
      (fun source => ?_)
    refine Resolves.bind (Resolves.onLine line (stringArgument_dynamic (by omega)))
      (fun target => ?_)
    exact Resolves.bind (buildDelta_resolves g source target) (fun _ => Resolves.pure _)

/-! ## Expressions -/

theorem at?_eq_nil {p : Position} {problem : Option Problem} (h : at? p problem = []) :
    problem = none := by
  cases problem with
  | none => rfl
  | some q => exact absurd h (List.cons_ne_nil _ _)

theorem call_resolves (g : Environment) (line : Nat) {name : String} {args : List Value}
    (h : problemOfCall name args.length = none) :
    Resolves names (call g line name args) names := by
  unfold problemOfCall at h
  unfold call
  cases hname : Builtin.ofName? name with
  | none =>
    rw [hname] at h
    exact nomatch h
  | some b =>
    rw [hname] at h
    simp only at h
    split at h
    · rename_i haccepts
      exact callBuiltin_resolves g line haccepts
    · exact nomatch h

theorem methodCall_resolves (line : Nat) (v : Value) {name : String} {args : List Value}
    (h : problemOfMethod name args.length = none) :
    Resolves names (methodCall line v name args) names := by
  unfold problemOfMethod at h
  unfold methodCall
  cases hname : Method.ofName? name with
  | none =>
    rw [hname] at h
    exact nomatch h
  | some m =>
    rw [hname] at h
    simp only at h
    split at h
    · rename_i haccepts
      exact Resolves.onLine line (method_dynamic haccepts v)
    · exact nomatch h

theorem globalValue_dynamic (g : Environment) {name : String} (h : Global.isName name = true) :
    Dynamic (globalValue g name) := by
  unfold Global.isName at h
  unfold globalValue
  cases hname : Global.ofName? name with
  | none =>
    rw [hname] at h
    exact nomatch h
  | some global => cases global <;> exact dynamic_ok _

/-- A name that `resolve` accepts has a value: a block declares it, or every script has
it. -/
theorem lookup_resolves (g : Environment) (line : Nat) {name : String}
    (h : problemOfName names name = none) : Resolves names (lookup g line name) names := by
  unfold problemOfName at h
  split at h
  · rename_i hknown
    intro s hs
    unfold lookup
    rw [Run.bind_apply]
    simp only [Run.scopes]
    cases hvalue : s.scopes.get? name with
    | some v => exact hs
    | none =>
      rcases Bool.or_eq_true_iff.mp hknown with hdeclared | hglobal
      · have := hs.get? hdeclared
        rw [hvalue] at this
        exact nomatch this
      · exact Resolves.onLine line (globalValue_dynamic g hglobal) s hs
  · split at h <;> exact nomatch h

theorem asCondition_resolves (line : Nat) (v : Value) :
    Resolves names (asCondition line v) names := by
  unfold asCondition
  split
  · exact Resolves.pure _
  · exact Resolves.onLine line (dynamic_error rfl)

mutual

theorem eval_resolves (g : Environment) {e : Expr} (h : checkExpr names e = []) :
    Resolves names (eval g e) names := by
  cases e with
  | int p n | str p s | bool p b | null p => exact Resolves.pure _
  | list p items =>
    intro s hs
    exact Run.Triple.bind (evalAll_resolves g h) (fun vs => Run.Triple.pure fun t ht => ht.2) s hs
  | ident p name => exact lookup_resolves g p.line (at?_eq_nil h)
  | unary p op operand =>
    exact Resolves.bind (eval_resolves g h)
      (fun v => Resolves.onLine p.line (unary_dynamic op v))
  | binary p op left right =>
    obtain ⟨hleft, hright⟩ := List.append_eq_nil_iff.mp h
    by_cases hand : op = .and
    · subst hand
      refine Resolves.bind (eval_resolves g hleft) (fun l => ?_)
      refine Resolves.bind (asCondition_resolves left.line l) (fun b => ?_)
      cases b with
      | true =>
        refine Resolves.bind (eval_resolves g hright) (fun r => ?_)
        exact Resolves.bind (asCondition_resolves right.line r) (fun _ => Resolves.pure _)
      | false => exact Resolves.pure _
    · by_cases hor : op = .or
      · subst hor
        refine Resolves.bind (eval_resolves g hleft) (fun l => ?_)
        refine Resolves.bind (asCondition_resolves left.line l) (fun b => ?_)
        cases b with
        | true => exact Resolves.pure _
        | false =>
          refine Resolves.bind (eval_resolves g hright) (fun r => ?_)
          exact Resolves.bind (asCondition_resolves right.line r) (fun _ => Resolves.pure _)
      · rw [eval_binary g p hand hor]
        refine Resolves.bind (eval_resolves g hleft) (fun v => ?_)
        refine Resolves.bind (eval_resolves g hright) (fun w => ?_)
        exact Resolves.onLine p.line (binary_dynamic op v w)
  | field p object name =>
    exact Resolves.bind (eval_resolves g h)
      (fun v => Resolves.onLine p.line (field_dynamic v name))
  | index p object index =>
    obtain ⟨hobject, hindex⟩ := List.append_eq_nil_iff.mp h
    refine Resolves.bind (eval_resolves g hobject) (fun v => ?_)
    refine Resolves.bind (eval_resolves g hindex) (fun i => ?_)
    exact Resolves.onLine p.line (index_dynamic v i)
  | call p name args =>
    obtain ⟨hcall, hargs⟩ := List.append_eq_nil_iff.mp h
    refine Run.Triple.bind (evalAll_resolves g hargs) (fun vs s hs => ?_)
    rw [← hs.1] at hcall
    exact call_resolves g p.line (at?_eq_nil hcall) s hs.2
  | method p object name args =>
    obtain ⟨hfront, hargs⟩ := List.append_eq_nil_iff.mp h
    obtain ⟨hobject, hcall⟩ := List.append_eq_nil_iff.mp hfront
    refine Resolves.bind (eval_resolves g hobject) (fun v => ?_)
    refine Run.Triple.bind (evalAll_resolves g hargs) (fun vs s hs => ?_)
    rw [← hs.1] at hcall
    exact methodCall_resolves p.line v (at?_eq_nil hcall) s hs.2

/-- There are as many values as expressions, which is why counting the expressions of
a call is enough. -/
theorem evalAll_resolves (g : Environment) {es : List Expr} (h : checkExprs names es = []) :
    Run.Triple (fun s => Covers names s.scopes) (evalAll g es)
      (fun vs t => vs.length = es.length ∧ Covers names t.scopes)
      fun f _ => f.isStatic = false := by
  cases es with
  | nil => exact Run.Triple.pure fun _ hs => ⟨rfl, hs⟩
  | cons e es =>
    obtain ⟨he, hes⟩ := List.append_eq_nil_iff.mp h
    refine Run.Triple.bind (eval_resolves g he) (fun v => ?_)
    refine Run.Triple.bind (evalAll_resolves g hes) (fun vs => Run.Triple.pure fun t ht => ?_)
    exact ⟨by rw [List.length_cons, List.length_cons, ht.1], ht.2⟩

end

/-! ## Statements -/

/-- Only a declaration changes the names that are known behind a statement. -/
theorem checkStmt_names (names : Names) (st : Stmt) :
    (checkStmt names st).2 = names ∨ ∃ name, (checkStmt names st).2 = names.declare name := by
  cases st with
  | declare line name value =>
    show declared names name = names ∨ ∃ other, declared names name = names.declare other
    unfold declared
    split
    · exact Or.inl rfl
    · exact Or.inr ⟨name, rfl⟩
  | assign | evaluate | branch | loop | each | block | checkpoint => exact Or.inl rfl

theorem checkStmt_tail (names : Names) (st : Stmt) : (checkStmt names st).2.tail = names.tail := by
  rcases checkStmt_names names st with h | ⟨name, h⟩
  · rw [h]
  · rw [h]
    cases names <;> rfl

namespace Covers

theorem tail {scopes : Scopes} (h : Covers names scopes) : Covers names.tail (scopes.drop 1) := by
  cases names with
  | nil => trivial
  | cons block names =>
    cases scopes with
    | nil => exact h.elim
    | cons scope scopes => exact h.2

theorem ofDeclare {scopes : Scopes} {name : String} (h : Covers (names.declare name) scopes) :
    Covers names scopes := by
  cases names with
  | nil => trivial
  | cons block names =>
    cases scopes with
    | nil => exact h.elim
    | cons scope scopes =>
      exact ⟨fun other hother => h.1 other (List.mem_cons_of_mem _ hother), h.2⟩

theorem ofStmt {scopes : Scopes} {st : Stmt} (h : Covers (checkStmt names st).2 scopes) :
    Covers names scopes := by
  rcases checkStmt_names names st with hnames | ⟨name, hnames⟩
  · rwa [hnames] at h
  · rw [hnames] at h
    exact h.ofDeclare

end Covers

theorem declare_resolves {name : String} (h : problemOfDeclaration name = none) (v : Value) :
    Resolves names (declare name v) (declared names name) := by
  have hglobal : ¬Global.isName name = true := by
    unfold problemOfDeclaration at h
    split at h
    · exact nomatch h
    · assumption
  intro s hs
  rw [declared, if_neg hglobal]
  exact hs.declare name v

theorem assign_resolves (line : Nat) {name : String} (h : problemOfAssignment names name = none)
    (v : Value) : Resolves names (assign line name v) names := by
  have hdeclared : names.declares name = true := by
    unfold problemOfAssignment at h
    split at h
    · exact nomatch h
    · split at h
      · assumption
      · exact nomatch h
  intro s hs
  obtain ⟨changed, hassign, hcovers⟩ := hs.assign hdeclared v
  unfold assign
  rw [Run.bind_apply]
  simp only [Run.scopes, hassign]
  exact hcovers

namespace Resolves

/-- A block has a scope of its own, which is gone behind it. -/
theorem inScope {block : List String} {scope : Scope} {body : Run Unit}
    (hscope : ∀ name ∈ block, (scope.get? name).isSome)
    (hbody : Run.Triple (fun s => Covers (block :: names) s.scopes) body
      (fun _ t => Covers names (t.scopes.drop 1)) fun f _ => f.isStatic = false) :
    Resolves names (Run.inScope scope body) names := by
  refine Run.Triple.inScope (hbody.weaken ?_ (fun _ _ h => h) (fun _ _ h => h))
  rintro _ ⟨s, hs, rfl⟩
  exact ⟨hscope, hs⟩

theorem checkpoint (name : String) {body : Run Unit} (hbody : Resolves names body names) :
    Resolves names (Run.checkpoint name body) names := by
  refine Run.Triple.checkpoint (fun _ hs => hs) (hbody.weaken (fun _ hs => hs) (fun _ _ h => h) ?_)
  intro f t hf
  rw [Failure.isStatic_inCheckpoint]
  exact hf

theorem whileTrue (fuel : Nat) {cond : Run Bool} {body : Run Unit}
    (hcond : Resolves names cond names) (hbody : Resolves names body names) :
    Resolves names (Run.whileTrue fuel cond body) names :=
  Run.Triple.whileTrue fuel hcond hbody

theorem forEach (vs : List Value) {body : Value → Run Unit}
    (hbody : ∀ v, Resolves names (body v) names) : Resolves names (Run.forEach body vs) names :=
  Run.Triple.forEach vs hbody

end Resolves

theorem evalCondition_resolves (g : Environment) {e : Expr} (h : checkExpr names e = []) :
    Resolves names (evalCondition g e) names :=
  Resolves.bind (eval_resolves g h) fun v => asCondition_resolves e.line v

mutual

theorem exec_resolves {names : Names} (g : Environment) (fuel : Nat) {st : Stmt}
    (h : (checkStmt names st).1 = []) : Resolves names (exec g fuel st) (checkStmt names st).2 := by
  cases st with
  | declare line name value =>
    obtain ⟨hvalue, hname⟩ := List.append_eq_nil_iff.mp h
    exact Resolves.bind (eval_resolves g hvalue)
      (fun v => declare_resolves (at?_eq_nil hname) v)
  | assign line name value =>
    obtain ⟨hvalue, hname⟩ := List.append_eq_nil_iff.mp h
    exact Resolves.bind (eval_resolves g hvalue)
      (fun v => assign_resolves line (at?_eq_nil hname) v)
  | evaluate line e =>
    exact Resolves.bind (eval_resolves g h) (fun _ => Resolves.pure _)
  | branch line cond body other =>
    obtain ⟨hfront, hother⟩ := List.append_eq_nil_iff.mp h
    obtain ⟨hcond, hbody⟩ := List.append_eq_nil_iff.mp hfront
    refine Resolves.bind (evalCondition_resolves g hcond) (fun b => ?_)
    cases b with
    | true => exact Resolves.inScope (by simp) (execAll_resolves g fuel hbody)
    | false => exact execOther_resolves g fuel hother
  | loop line cond body =>
    obtain ⟨hcond, hbody⟩ := List.append_eq_nil_iff.mp h
    exact Resolves.whileTrue fuel (evalCondition_resolves g hcond)
      (Resolves.inScope (by simp) (execAll_resolves g fuel hbody))
  | each line name items body =>
    obtain ⟨hfront, hbody⟩ := List.append_eq_nil_iff.mp h
    obtain ⟨hitems, -⟩ := List.append_eq_nil_iff.mp hfront
    refine Resolves.bind (eval_resolves g hitems) (fun v => ?_)
    refine Resolves.bind (Resolves.onLine items.line (elements_dynamic v)) (fun vs => ?_)
    refine Resolves.forEach vs (fun w => Resolves.inScope ?_ (execAll_resolves g fuel hbody))
    intro other hother
    obtain rfl := List.mem_singleton.mp hother
    simp [Scope.get?]
  | block line body => exact Resolves.inScope (by simp) (execAll_resolves g fuel h)
  | checkpoint line name body =>
    exact Resolves.checkpoint name (Resolves.inScope (by simp) (execAll_resolves g fuel h))

theorem execAll_resolves {names : Names} (g : Environment) (fuel : Nat) {ss : List Stmt}
    (h : checkStmts names ss = []) :
    Run.Triple (fun s => Covers names s.scopes) (execAll g fuel ss)
      (fun _ t => Covers names.tail (t.scopes.drop 1)) fun f _ => f.isStatic = false := by
  cases ss with
  | nil => exact Run.Triple.pure fun _ hs => hs.tail
  | cons st ss =>
    obtain ⟨hst, hss⟩ := List.append_eq_nil_iff.mp h
    refine Run.Triple.bind (exec_resolves g fuel hst) (fun _ => ?_)
    have hrest := execAll_resolves g fuel hss
    rwa [checkStmt_tail] at hrest

theorem execOther_resolves {names : Names} (g : Environment) (fuel : Nat) {other : Option Stmt}
    (h : checkOther names other = []) : Resolves names (execOther g fuel other) names := by
  cases other with
  | none => exact Resolves.pure _
  | some st =>
    exact (exec_resolves g fuel h).weaken (fun _ hs => hs) (fun _ _ ht => ht.ofStmt)
      (fun _ _ hf => hf)

end

/-! ## Compiled scripts -/

/-- No run of a compiled script fails for a name or for an argument that is not there,
from whatever session and with whatever fuel it starts.  An argument list is read only
through `argument`, which answers `missingArgument` past its end, and through the optional
arguments of `assert` and `format`. -/
theorem run_resolved {text : String} {p : Program} (h : compile text = .ok p) (g : Environment)
    (fuel : Nat) (s : Session) {f : Failure} (hrun : (run g fuel p s).1 = .failed f) :
    f.isStatic = false := by
  have hresolved : checkStmts [[]] p.stmts = [] := (clean_of_compile h).2.1
  have hrun' : Resolves [] (run g fuel p) [] :=
    Resolves.inScope (by simp) (execAll_resolves g fuel hresolved)
  exact hrun'.failed trivial (Prod.ext hrun rfl)

/-- A script that divides by zero in the second round of its inner loop. -/
def dividing : String :=
  "let a = 2;\nwhile a > 0 \x7b\n" ++
    "  for b in [1, 0] \x7b if b == 1 \x7b a = a - b; \x7d else \x7b a = a / b; \x7d \x7d\n\x7d\n"

theorem run_resolved_dividing :
    ∃ p, compile dividing = .ok p ∧
      (run quiet 1 p silent).1 = .failed (.script 3 .divisionByZero []) ∧
      (Failure.script 3 .divisionByZero []).isStatic = false := by
  have hcompile : compile dividing = .ok (diagnose dividing).1 := by
    unfold compile
    exact if_pos (by decide +kernel)
  have hrun : (run quiet 1 (diagnose dividing).1 silent).1 =
      .failed (.script 3 .divisionByZero []) := by
    decide +kernel
  exact ⟨_, hcompile, hrun, run_resolved hcompile quiet 1 silent hrun⟩

end Script
end CheckScript
