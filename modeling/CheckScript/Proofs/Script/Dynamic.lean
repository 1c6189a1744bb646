/-
Which faults a script can be cleared of before it runs.

A fault is static if names and argument counts alone decide it.  All operations on
values raise other faults only; functions and methods look at arguments by number, and
raise a static fault exactly if the number is too high.  So the tables of argument
counts have to agree with the bodies: `method_dynamic` is that agreement for methods,
and functions follow with the runs.
-/
import CheckScript.Script.Operation
import CheckScript.Script.Template

namespace CheckScript
namespace Script

/-- Faults of names and of argument counts, which do not depend on the values of a run. -/
def Fault.isStatic : Fault → Bool
  | .undeclared _ | .assignedUndeclared _ | .unknownFunction _ | .unknownMethod _
  | .missingArgument _ _ | .assertNotBool none => true
  | _ => false

/-- The faults of an operation, if it has any, depend on values. -/
def Dynamic {α : Type} (r : Except Fault α) : Prop := ∀ f, r = .error f → f.isStatic = false

theorem dynamic_ok {α : Type} (a : α) : Dynamic (.ok a) := fun _ h => nomatch h

theorem dynamic_error {α : Type} {f : Fault} (h : f.isStatic = false) :
    Dynamic (.error f : Except Fault α) := by
  intro g hg
  obtain rfl := Except.error.inj hg
  exact h

theorem dynamic_bind {α β : Type} {r : Except Fault α} {k : α → Except Fault β} (hr : Dynamic r)
    (hk : ∀ a, r = .ok a → Dynamic (k a)) : Dynamic (r >>= k) := by
  cases r with
  | ok a => exact hk a rfl
  | error f => exact dynamic_error (hr f rfl)

theorem dynamic_map {α β : Type} {r : Except Fault α} (k : α → β) (hr : Dynamic r) :
    Dynamic (r.map k) := by
  cases r with
  | ok a => exact dynamic_ok _
  | error f => exact dynamic_error (hr f rfl)

/-! ## Operations on values -/

theorem bounded_dynamic (n : Int) : Dynamic (bounded n) := by
  unfold bounded
  split
  · exact dynamic_ok _
  · exact dynamic_error rfl

theorem divide_dynamic (a b result : Int) : Dynamic (divide a b result) := by
  unfold divide
  split
  · exact dynamic_error rfl
  · split
    · exact dynamic_ok _
    · exact dynamic_error rfl

theorem unary_dynamic (op : UnaryOp) (v : Value) : Dynamic (op.apply v) := by
  unfold UnaryOp.apply
  split
  · exact dynamic_ok _
  · exact bounded_dynamic _
  · exact dynamic_error rfl
  · exact dynamic_error rfl

theorem binaryInts_dynamic (op : BinaryOp) (a b : Int) : Dynamic (op.applyInts a b) := by
  cases op with
  | add | sub | mul => exact bounded_dynamic _
  | div | rem => exact divide_dynamic _ _ _
  | eq | ne | lt | le | gt | ge => exact dynamic_ok _
  | and | or => exact dynamic_error rfl

theorem binary_dynamic (op : BinaryOp) (v w : Value) : Dynamic (op.apply v w) := by
  unfold BinaryOp.apply
  repeat' split
  all_goals first
    | exact dynamic_ok _
    | exact dynamic_error rfl
    | exact binaryInts_dynamic _ _ _

theorem find_dynamic (v : Value) (path : String) : Dynamic (v.find path) := by
  unfold Value.find
  split
  · exact dynamic_error rfl
  · split
    · exact dynamic_error rfl
    · exact dynamic_ok _

theorem field_dynamic (v : Value) (name : String) : Dynamic (v.field name) := by
  unfold Value.field
  split
  · split
    · exact dynamic_error rfl
    · exact dynamic_ok _
  · exact find_dynamic _ _

theorem item_dynamic (items : List Value) (i : Int) : Dynamic (Value.item items i) := by
  unfold Value.item
  split
  · exact dynamic_error rfl
  · exact dynamic_ok _

theorem index_dynamic (v i : Value) : Dynamic (v.index i) := by
  unfold Value.index
  split
  · exact item_dynamic _ _
  · split
    · exact dynamic_error rfl
    · exact dynamic_ok _
  iterate 4 exact find_dynamic _ _
  exact dynamic_error rfl

theorem elements_dynamic (v : Value) : Dynamic v.elements := by
  unfold Value.elements
  split
  iterate 3 exact dynamic_ok _
  exact dynamic_error rfl

theorem length_dynamic (v : Value) : Dynamic v.length := by
  unfold Value.length
  split
  iterate 5 exact dynamic_ok _
  exact dynamic_error rfl

theorem toInt_dynamic (v : Value) : Dynamic v.toInt := by
  unfold Value.toInt
  split
  · exact dynamic_ok _
  · split
    · exact dynamic_error rfl
    · exact dynamic_ok _
  · exact dynamic_error rfl

/-! ## Templates -/

theorem placeholder_dynamic (args : List Value) (text : List Char) :
    Dynamic (placeholder args text) := by
  unfold placeholder
  split
  · exact dynamic_error rfl
  · split
    · exact dynamic_error rfl
    · exact dynamic_ok _

theorem fill_dynamic (args : List Value) (cs : List Char) : Dynamic (fill args cs) := by
  fun_induction fill args cs with
  | case1 => exact dynamic_ok _
  | case2 _ ih | case3 _ ih => exact dynamic_map _ ih
  | case4 => exact dynamic_error rfl
  | case5 _ _ _ _ _ fault hfault => exact dynamic_error (placeholder_dynamic args _ fault hfault)
  | case6 _ _ _ _ _ _ _ _ ih => exact dynamic_map _ ih
  | case7 _ _ _ _ _ ih => exact dynamic_map _ ih

/-! ## Arguments by number -/

theorem exactly_accepts {n k : Nat} : (Arity.exactly n).accepts k = true ↔ k = n := by
  show (decide (n ≤ k) && decide (k ≤ n)) = true ↔ k = n
  rw [Bool.and_eq_true, decide_eq_true_eq, decide_eq_true_eq]
  omega

theorem between_accepts {m n k : Nat} : (Arity.between m n).accepts k = true ↔ m ≤ k ∧ k ≤ n := by
  show (decide (m ≤ k) && decide (k ≤ n)) = true ↔ m ≤ k ∧ k ≤ n
  rw [Bool.and_eq_true, decide_eq_true_eq, decide_eq_true_eq]

theorem atLeast_accepts {m k : Nat} : (Arity.atLeast m).accepts k = true ↔ m ≤ k := by
  show (decide (m ≤ k) && true) = true ↔ m ≤ k
  rw [Bool.and_true, decide_eq_true_eq]

theorem argument_dynamic {function : String} {args : List Value} {number : Nat}
    (h : number - 1 < args.length) : Dynamic (argument function args number) := by
  rw [argument, List.getElem?_eq_getElem h]
  exact dynamic_ok _

theorem stringArgument_dynamic {function : String} {args : List Value} {number : Nat}
    (h : number - 1 < args.length) : Dynamic (stringArgument function args number) := by
  rw [stringArgument, List.getElem?_eq_getElem h]
  split
  · rename_i hnone
    cases hnone
  · exact dynamic_ok _
  · exact dynamic_error rfl

/-! ## Methods -/

theorem record_dynamic (m : Method) (v : Value) : Dynamic (m.record v) := by
  unfold Method.record
  split
  · exact dynamic_ok _
  · exact dynamic_error rfl

theorem containsValue_dynamic (v w : Value) : Dynamic (Method.containsValue v w) := by
  unfold Method.containsValue
  split
  iterate 3 exact dynamic_ok _
  exact dynamic_error rfl

/-- A method that gets as many arguments as its table entry says never misses one. -/
theorem method_dynamic {m : Method} {args : List Value} (h : m.arity.accepts args.length = true)
    (v : Value) : Dynamic (m.apply v args) := by
  cases m with
  | find =>
    have hlen : args.length = 1 := exactly_accepts.mp h
    exact dynamic_bind (stringArgument_dynamic (by omega)) (fun path _ => find_dynamic v path)
  | findString =>
    have hlen : args.length = 1 := exactly_accepts.mp h
    refine dynamic_bind (stringArgument_dynamic (by omega)) (fun path _ => ?_)
    refine dynamic_bind (find_dynamic v path) (fun w _ => ?_)
    split
    · exact dynamic_ok _
    · exact dynamic_error rfl
  | findInt =>
    have hlen : args.length = 1 := exactly_accepts.mp h
    refine dynamic_bind (stringArgument_dynamic (by omega)) (fun path _ => ?_)
    refine dynamic_bind (find_dynamic v path) (fun w _ => ?_)
    split
    · split
      · exact dynamic_error rfl
      · exact dynamic_ok _
    · exact dynamic_error rfl
  | has =>
    have hlen : args.length = 1 := exactly_accepts.mp h
    exact dynamic_bind (stringArgument_dynamic (by omega)) (fun path _ => dynamic_ok _)
  | className | kind =>
    exact dynamic_bind (record_dynamic _ v) (fun r _ => dynamic_ok _)
  | token =>
    refine dynamic_bind (record_dynamic _ v) (fun r _ => ?_)
    split
    · exact dynamic_ok _
    · split
      · exact dynamic_ok _
      · exact dynamic_error rfl
  | text =>
    refine dynamic_bind (record_dynamic _ v) (fun r _ => ?_)
    split <;> exact dynamic_ok _
  | contains =>
    have hlen : args.length = 1 := exactly_accepts.mp h
    exact dynamic_bind (argument_dynamic (by omega)) (fun w _ => containsValue_dynamic v w)
  | startsWith =>
    have hlen : args.length = 1 := exactly_accepts.mp h
    simp only [Method.apply]
    split
    · exact dynamic_bind (stringArgument_dynamic (by omega)) (fun path _ => dynamic_ok _)
    · exact dynamic_error rfl

end Script
end CheckScript
