/-
What a block does to the scopes around it.

Scopes are counted from the outermost one, so that a scope keeps its number while blocks inside it
are opened and closed.  A step of a run keeps scopes if it leaves their number and their names, and
if each value that it changes was given by an assignment that the run has come to, to the innermost
variable of that name (`Kept`).  A statement keeps all scopes but the innermost, where it may
declare names (`exec_kept`).  A block puts a new scope innermost and takes away what is innermost
in the end, however it ends, so it keeps all (`inScope_kept`).
-/
import CheckScript.Proofs.Script.Arrival
import CheckScript.Proofs.Script.Resolution

namespace CheckScript
namespace Script

/-! ## Scopes by their number -/

/-- The names that a scope declares. -/
def Scope.names (s : Scope) : List String := s.map Prod.fst

theorem Scope.names_put {s : Scope} {name : String} (h : (s.get? name).isSome) (v : Value) :
    (s.put name v).names = s.names := by
  induction s with
  | nil => cases h
  | cons entry rest ih =>
    obtain ⟨n, w⟩ := entry
    rw [get?] at h
    rw [put]
    split
    · rfl
    · rename_i hn
      rw [if_neg hn] at h
      exact congrArg (n :: ·) (ih h)

namespace Scopes

/-- The value of a variable in the scope with number `k`, counted from the outermost. -/
def valueAt (s : Scopes) (k : Nat) (name : String) : Option Value :=
  s.reverse[k]?.bind fun scope => scope.get? name

/-- The scope with number `k` is the innermost that has a variable with this name. -/
structure Innermost (s : Scopes) (name : String) (k : Nat) : Prop where
  has : (s.valueAt k name).isSome
  unshadowed : ∀ j, k < j → s.valueAt j name = none

variable {scope : Scope} {outer scopes : Scopes} {name : String}

theorem valueAt_eq_none {k : Nat} (h : scopes.length ≤ k) (name : String) :
    scopes.valueAt k name = none := by
  rw [valueAt, List.getElem?_eq_none (by rwa [List.length_reverse])]
  rfl

theorem valueAt_cons (scope : Scope) (outer : Scopes) (k : Nat) (name : String) :
    valueAt (scope :: outer) k name =
      if k = outer.length then scope.get? name else outer.valueAt k name := by
  unfold valueAt
  rw [List.reverse_cons]
  split
  · rename_i hk
    subst hk
    rw [List.getElem?_append_right (by simp)]
    simp
  · rename_i hk
    rcases Nat.lt_or_gt_of_ne hk with hlt | hgt
    · rw [List.getElem?_append_left (by rwa [List.length_reverse])]
    · rw [List.getElem?_eq_none (by simp; omega), List.getElem?_eq_none (by simp; omega)]

/-- Leaving the innermost scope does not change what is in the others. -/
theorem valueAt_tail (scopes : Scopes) (k : Nat) (name : String) :
    valueAt scopes.tail k name = if k + 1 < scopes.length then scopes.valueAt k name else none := by
  cases scopes with
  | nil => rfl
  | cons scope outer =>
    rw [List.tail_cons, valueAt_cons, List.length_cons]
    split
    · rw [if_neg (by omega)]
    · exact valueAt_eq_none (by omega) name

/-- An assignment changes the innermost variable of its name and nothing else. -/
theorem assign_innermost {v : Value} {changed : Scopes} (h : scopes.assign name v = some changed) :
    ∃ k, Innermost scopes name k ∧ changed.map Scope.names = scopes.map Scope.names ∧
      ∀ j other, changed.valueAt j other =
        if j = k ∧ name = other then some v else scopes.valueAt j other := by
  induction scopes generalizing changed with
  | nil => cases h
  | cons scope outer ih =>
    rw [assign] at h
    split at h
    · rename_i hhas
      obtain rfl := Option.some.inj h
      refine ⟨outer.length, ⟨?_, fun j hj => ?_⟩, ?_, fun j other => ?_⟩
      · rw [valueAt_cons, if_pos rfl]
        exact hhas
      · exact valueAt_eq_none hj name
      · rw [List.map_cons, Scope.names_put hhas, List.map_cons]
      · rw [valueAt_cons, valueAt_cons, Scope.get?_put]
        by_cases hj : j = outer.length
        · rw [if_pos hj, if_pos hj]
          simp only [hj, true_and]
        · rw [if_neg hj, if_neg hj, if_neg (fun h => hj h.1)]
    · rename_i hhas
      obtain ⟨inner, hinner, rfl⟩ := Option.map_eq_some_iff.mp h
      obtain ⟨k, hk, hnames, hvalues⟩ := ih hinner
      have hlength : inner.length = outer.length := by
        rw [← List.length_map Scope.names, hnames, List.length_map]
      have hlt : k < outer.length := by
        refine Nat.lt_of_not_le fun hge => ?_
        have hhas := hk.has
        rw [valueAt_eq_none hge] at hhas
        exact Bool.false_ne_true hhas
      refine ⟨k, ⟨?_, fun j hj => ?_⟩, ?_, fun j other => ?_⟩
      · rw [valueAt_cons, if_neg (Nat.ne_of_lt hlt)]
        exact hk.has
      · rw [valueAt_cons]
        split
        · exact Option.not_isSome_iff_eq_none.mp hhas
        · exact hk.unshadowed j hj
      · rw [List.map_cons, hnames, List.map_cons]
      · rw [valueAt_cons, valueAt_cons, hvalues, hlength]
        by_cases hj : j = outer.length
        · rw [if_pos hj, if_pos hj, if_neg (fun heq => Nat.ne_of_lt hlt (heq.1.symm.trans hj))]
        · rw [if_neg hj, if_neg hj]

end Scopes

/-! ## Nodes that a run comes to -/

/-- A run of `root` from `s` comes to a node, in the second session. -/
inductive Comes (g : Environment) (fuel : Nat) (root : Node) (s : Session) :
    Node → Session → Prop where
  | here : Comes g fuel root s root s
  | into {node child : Node} {i : Nat} {t u : Session} (h : Comes g fuel root s node t)
      (hstarts : Starts g fuel node t i u)
      (hchild : (node.children [])[i]?.map Prod.snd = some child) : Comes g fuel root s child u

/-- A run of `root` from `s` comes to an assignment of `v` to the variable `name` of the scope with
number `k`: no scope inside that one has a variable with this name at that moment. -/
def Assigned (g : Environment) (fuel : Nat) (root : Node) (s : Session) (k : Nat) (name : String)
    (v : Value) : Prop :=
  ∃ line e t u, Comes g fuel root s (.stmt (.assign line name e)) t ∧
    eval g e t = (.done v, u) ∧ u.scopes.Innermost name k

/-- The same scopes with the same names, where values differ only by assignments. -/
structure Kept (assigned : Nat → String → Value → Prop) (before after : Scopes) : Prop where
  names : after.map Scope.names = before.map Scope.names
  values : ∀ k name, after.valueAt k name = before.valueAt k name ∨
    ∃ v, after.valueAt k name = some v ∧ assigned k name v

namespace Kept

variable {assigned : Nat → String → Value → Prop} {before middle after : Scopes}

theorem refl (assigned : Nat → String → Value → Prop) (before : Scopes) :
    Kept assigned before before := ⟨rfl, fun _ _ => .inl rfl⟩

theorem trans (h : Kept assigned before middle) (h' : Kept assigned middle after) :
    Kept assigned before after := by
  refine ⟨h'.names.trans h.names, fun k name => ?_⟩
  rcases h'.values k name with heq | hassigned
  · rw [heq]
    exact h.values k name
  · exact .inr hassigned

theorem length (h : Kept assigned before after) : after.length = before.length := by
  rw [← List.length_map Scope.names, h.names, List.length_map]

theorem tail (h : Kept assigned before after) : Kept assigned before.tail after.tail := by
  refine ⟨?_, fun k name => ?_⟩
  · rw [List.map_tail, h.names, List.map_tail]
  · rw [Scopes.valueAt_tail, Scopes.valueAt_tail, h.length]
    split
    · exact h.values k name
    · exact .inl rfl

end Kept

/-! ## Steps that keep the scopes outside the innermost one -/

/-- From `s` to `t` all scopes but the innermost are kept. -/
def Outside (assigned : Nat → String → Value → Prop) (s t : Session) : Prop :=
  Kept assigned s.scopes.tail t.scopes.tail

section Steps

variable {g : Environment} {fuel : Nat} {α β : Type} {s t : Session}
  {assigned : Nat → String → Value → Prop}

theorem outside_of_same (h : t.scopes = s.scopes) : Outside assigned s t := by
  rw [Outside, h]
  exact .refl _ _

theorem bind_outside {m : Run α} {k : α → Run β} (hm : Outside assigned s (m s).2)
    (hk : ∀ a t, m s = (.done a, t) → Outside assigned t (k a t).2) :
    Outside assigned s ((m >>= k) s).2 := by
  rw [Run.bind_apply]
  match h : m s with
  | (.done a, t) =>
    rw [h] at hm
    exact Kept.trans hm (hk a t h)
  | (.failed _, _) | (.unfinished _, _) =>
    rw [h] at hm
    exact hm

/-- However a block ends, its scope is taken away. -/
theorem inScope_kept {scope : Scope} {body : Run Unit}
    (h : Outside assigned (s.enter scope) (body (s.enter scope)).2) :
    Kept assigned s.scopes (Run.inScope scope body s).2.scopes := by
  rw [Run.inScope, List.drop_one]
  exact h

theorem checkpoint_scopes (g : Environment) (name : String) (body : Run Unit) (s : Session) :
    (Run.checkpoint name body s).2.scopes = (body (s.mark name)).2.scopes := by
  rw [checkpoint_apply g, show (Effect.entered name).apply g s = s.mark name from rfl]
  cases body (s.mark name) with
  | mk outcome u => cases outcome <;> rfl

/-- A loop keeps the scopes if its rounds do, whichever way it ends. -/
theorem Rounds.whileTrue_outside {cond : Run Bool} {body : Run Unit}
    (hcond : ∀ t, (cond t).2.scopes = t.scopes)
    (hbody : ∀ left t u, Rounds cond body fuel s (left + 1) t → cond t = (.done true, u) →
      Outside assigned u (body u).2) {left : Nat} (h : Rounds cond body fuel s left t) :
    Outside assigned t (Run.whileTrue left cond body t).2 := by
  induction left generalizing t with
  | zero =>
    rw [Run.whileTrue]
    refine bind_outside (outside_of_same (hcond t)) fun b u hb => ?_
    cases b <;> exact outside_of_same rfl
  | succ left ih =>
    rw [Run.whileTrue]
    refine bind_outside (outside_of_same (hcond t)) fun b u hb => ?_
    cases b with
    | false => exact outside_of_same rfl
    | true => exact bind_outside (hbody left t u h hb) fun _ v hv => ih (.next h hb hv)

theorem ItemRounds.forEach_outside {body : Value → Run Unit} {vs : List Value}
    (hbody : ∀ w rest t, ItemRounds body vs s (w :: rest) t → Outside assigned t (body w t).2)
    {rest : List Value} (h : ItemRounds body vs s rest t) :
    Outside assigned t (Run.forEach body rest t).2 := by
  induction rest generalizing t with
  | nil => exact outside_of_same rfl
  | cons w rest ih =>
    rw [Run.forEach]
    exact bind_outside (hbody w rest t h) fun _ u hu => ih (.next h hu)

theorem onLine_same_scopes (line : Nat) (r : Except Fault α) (s : Session) :
    (Run.onLine line r s).2.scopes = s.scopes := by
  cases r <;> rfl

end Steps

/-! ## Statements -/

section Statements

variable {g : Environment} {fuel : Nat} {root : Node} {s t : Session}

theorem assign_outside {line : Nat} {name : String} {e : Expr} {v : Value} {u : Session}
    (h : Comes g fuel root s (.stmt (.assign line name e)) t) (hv : eval g e t = (.done v, u)) :
    Outside (Assigned g fuel root s) u (assign line name v u).2 := by
  rw [assign_apply]
  cases hassign : u.scopes.assign name v with
  | none => exact outside_of_same rfl
  | some changed =>
    obtain ⟨k, hinnermost, hnames, hvalues⟩ := Scopes.assign_innermost hassign
    have hkept : Kept (Assigned g fuel root s) u.scopes changed := by
      refine ⟨hnames, fun j other => ?_⟩
      rw [hvalues]
      split
      · rename_i heq
        obtain ⟨rfl, rfl⟩ := heq
        exact .inr ⟨v, rfl, line, e, t, u, h, hv, hinnermost⟩
      · exact .inl rfl
    exact hkept.tail

mutual

/-- A statement that a run comes to keeps all scopes but the innermost. -/
theorem exec_outside (st : Stmt) {t : Session} (h : Comes g fuel root s (.stmt st) t) :
    Outside (Assigned g fuel root s) t (exec g fuel st t).2 := by
  cases st with
  | declare line name value =>
    rw [exec]
    refine bind_outside (outside_of_same (eval_same_scopes g value t)) fun v u _ => ?_
    have htail : (u.scopes.declare name v).tail = u.scopes.tail := by
      cases u.scopes <;> rfl
    show Kept _ u.scopes.tail (u.scopes.declare name v).tail
    rw [htail]
    exact .refl _ _
  | assign line name value =>
    rw [exec]
    exact bind_outside (outside_of_same (eval_same_scopes g value t)) fun v u hv =>
      assign_outside h hv
  | evaluate line e =>
    rw [exec]
    exact bind_outside (outside_of_same (eval_same_scopes g e t)) fun _ _ _ => outside_of_same rfl
  | branch line cond body other =>
    rw [exec]
    refine bind_outside (outside_of_same (evalCondition_same_scopes g cond t)) fun b u hb => ?_
    cases b with
    | true => exact (inScope_kept (execAll_outside body (h.into (.body hb) rfl))).tail
    | false =>
      cases other with
      | none => exact outside_of_same rfl
      | some st => exact exec_outside st (h.into (.other hb) rfl)
  | loop line cond body =>
    rw [exec]
    -- Each round starts its body in a session of its own, to which the run comes too.
    exact Rounds.whileTrue_outside (evalCondition_same_scopes g cond) (fun left t u hround hb =>
      (inScope_kept (execAll_outside body (h.into (.loopBody hround hb) rfl))).tail) .start
  | each line name items body =>
    rw [exec]
    refine bind_outside (outside_of_same (eval_same_scopes g items t)) fun v u hv => ?_
    refine bind_outside (outside_of_same (onLine_same_scopes _ _ u)) fun vs w hvs => ?_
    obtain ⟨helements, rfl⟩ := done_of_onLine hvs
    exact ItemRounds.forEach_outside (fun w rest t hround =>
      (inScope_kept (execAll_outside body (h.into (.eachBody hv helements hround) rfl))).tail)
      .start
  | block line body =>
    rw [exec]
    exact (inScope_kept (execAll_outside body (h.into .block rfl))).tail
  | checkpoint line name body =>
    rw [exec, Outside, checkpoint_scopes g]
    exact (inScope_kept (execAll_outside body (h.into .checkpoint rfl))).tail

theorem execAll_outside (ss : List Stmt) {t : Session} (h : Comes g fuel root s (.stmts ss) t) :
    Outside (Assigned g fuel root s) t (execAll g fuel ss t).2 := by
  cases ss with
  | nil => exact outside_of_same rfl
  | cons st ss =>
    rw [execAll]
    exact bind_outside (exec_outside st (h.into .head rfl)) fun _ u hu =>
      execAll_outside ss (h.into (.tail hu) rfl)

end

/-- A block, with or without a variable that it binds, leaves as many scopes as it found, however it
ends, and the names in each of them.  A value that is different then is one that an assignment in
the block gave to the variable, which was the innermost of its name at that moment.  Expressions
change nothing in any scope. -/
theorem block_scopes (g : Environment) (fuel : Nat) (body : List Stmt)
    (binding : Option (String × Value)) (s : Session) :
    let after := (Run.inScope binding.toList (execAll g fuel body) s).2.scopes
    after.length = s.scopes.length ∧ after.map Scope.names = s.scopes.map Scope.names ∧
      (∀ k name, after.valueAt k name = s.scopes.valueAt k name ∨
        ∃ v, after.valueAt k name = some v ∧
          Assigned g fuel (.stmts body) (s.enter binding.toList) k name v) ∧
      ∀ e es t, (eval g e t).2.scopes = t.scopes ∧ (evalAll g es t).2.scopes = t.scopes := by
  have hkept : Kept (Assigned g fuel (.stmts body) (s.enter binding.toList)) s.scopes
      (Run.inScope binding.toList (execAll g fuel body) s).2.scopes :=
    inScope_kept (execAll_outside body .here)
  exact ⟨hkept.length, hkept.names, hkept.values,
    fun e es t => ⟨eval_same_scopes g e t, evalAll_same_scopes g es t⟩⟩

end Statements
end Script
end CheckScript
