/-
Where the integers of scripts come from.

`Value.ints` are the integers in a value, those inside of lists and line tags included.  Each
operation, function and method either makes no integer, or hands on integers of its operands, or
makes one of a few (`BuiltinInt`, `MethodInt`).  `Evaluated` is the interpreter read backwards,
one constructor for each form of expression; from it follows where the value of an expression
comes from if it is an integer (`eval_int`).
-/
import CheckScript.Proofs.Script.Exactness
import CheckScript.Proofs.Script.Triple

namespace CheckScript
namespace Script

/-! ## Integers in values -/

namespace Value

mutual

/-- The integers in a value. -/
def ints : Value → List Int
  | .int n => [n]
  | .list items => intsAll items
  | .map tags => tags.entries.map fun e => (e.2 : Int)
  | _ => []

def intsAll : List Value → List Int
  | [] => []
  | v :: vs => ints v ++ intsAll vs

end

theorem mem_intsAll {n : Int} {vs : List Value} : n ∈ intsAll vs ↔ ∃ v ∈ vs, n ∈ v.ints := by
  induction vs with
  | nil => simp [intsAll]
  | cons v vs ih => simp [intsAll, ih]

theorem ofRecordValue_ints (v : RecordValue) : (ofRecordValue v).ints = [] := by
  cases v <;> rfl

theorem find_ints {v w : Value} {path : String} (h : v.find path = .ok w) : w.ints = [] := by
  unfold find at h
  split at h
  · cases h
  · split at h
    · cases h
    · obtain rfl := Except.ok.inj h
      exact ofRecordValue_ints _

theorem field_ints {v w : Value} {name : String} (h : v.field name = .ok w) :
    w.ints = [] ∨ ∃ tags n, v = .map tags ∧ tags.get? name = some n ∧ w = .int n := by
  unfold field at h
  split at h
  · rename_i tags
    split at h
    · cases h
    · rename_i n hn
      exact .inr ⟨tags, n, rfl, hn, (Except.ok.inj h).symm⟩
  · exact .inl (find_ints h)

theorem item_ok {items : List Value} {k : Int} {w : Value} (h : item items k = .ok w) :
    0 ≤ k ∧ items[k.toNat]? = some w := by
  unfold item at h
  split at h
  · cases h
  · rename_i v hv
    obtain rfl := Except.ok.inj h
    split at hv
    · cases hv
    · exact ⟨by omega, hv⟩

theorem index_ints {v i w : Value} (h : v.index i = .ok w) :
    w.ints = [] ∨
      (∃ items k, v = .list items ∧ i = .int k ∧ 0 ≤ k ∧ items[k.toNat]? = some w) ∨
      ∃ tags name n, v = .map tags ∧ i = .str name ∧ tags.get? name = some n ∧ w = .int n := by
  unfold index at h
  split at h
  · rename_i items k
    obtain ⟨hk, hitem⟩ := item_ok h
    exact .inr (.inl ⟨items, k, rfl, rfl, hk, hitem⟩)
  · rename_i tags name
    split at h
    · cases h
    · rename_i n hn
      exact .inr (.inr ⟨tags, name, n, rfl, rfl, hn, (Except.ok.inj h).symm⟩)
  · exact .inl (find_ints h)
  · exact .inl (find_ints h)
  · exact .inl (find_ints h)
  · exact .inl (find_ints h)
  · cases h

theorem elements_ints {v w : Value} {vs : List Value} (h : v.elements = .ok vs) (hw : w ∈ vs) :
    w.ints = [] ∨ ∃ items, v = .list items ∧ w ∈ items := by
  unfold elements at h
  split at h <;> cases h
  · exact .inr ⟨_, rfl, hw⟩
  · obtain ⟨item, -, rfl⟩ := List.mem_map.mp hw
    exact .inl (ofRecordValue_ints item)
  · obtain ⟨name, -, rfl⟩ := List.mem_map.mp hw
    exact .inl rfl

end Value

theorem unary_ints {op : UnaryOp} {v w : Value} (h : op.apply v = .ok w) :
    w.ints = [] ∨ ∃ a, op = .negate ∧ v = .int a ∧ bounded (-a) = .ok w := by
  unfold UnaryOp.apply at h
  split at h
  · obtain rfl := Except.ok.inj h
    exact .inl rfl
  · rename_i a
    exact .inr ⟨a, rfl, rfl, h⟩
  · cases h
  · cases h

theorem apply_ints (op : BinaryOp) (a b : Int) :
    op.apply (.int a) (.int b) = op.applyInts a b := by
  cases op <;> rfl

theorem binary_ints {op : BinaryOp} {v w x : Value} (h : op.apply v w = .ok x) :
    x.ints = [] ∨
      (∃ vs ws, v = .list vs ∧ w = .list ws ∧ x = .list (vs ++ ws)) ∨
      ∃ a b, op.isArithmetic = true ∧ v = .int a ∧ w = .int b ∧ op.applyInts a b = .ok x := by
  unfold BinaryOp.apply at h
  split at h
  · obtain rfl := Except.ok.inj h
    exact .inl rfl
  split at h
  · obtain rfl := Except.ok.inj h
    exact .inl rfl
  split at h
  · obtain rfl := Except.ok.inj h
    exact .inl rfl
  split at h
  · cases op with
    | add | sub | mul | div | rem => exact .inr (.inr ⟨_, _, rfl, rfl, rfl, h⟩)
    | and | or => cases h
    | _ =>
      obtain rfl := Except.ok.inj h
      exact .inl rfl
  · split at h
    · obtain rfl := Except.ok.inj h
      exact .inr (.inl ⟨_, _, rfl, rfl, rfl⟩)
    · cases h
  · split at h
    · obtain rfl := Except.ok.inj h
      exact .inl rfl
    · cases h
  · cases h

/-! ## Functions and methods -/

/-- The integers that functions give for their arguments. -/
inductive BuiltinInt (g : Environment) : Builtin → List Value → Int → Prop where
  | int {n : Int} {rest : List Value} : BuiltinInt g .int (.int n :: rest) n
  | numeral {text : String} {n : Int} {rest : List Value}
      (h : Integer.Numeral (Text.trimChars text.toList) n) (hfits : Integer.fits n = true) :
      BuiltinInt g .int (.str text :: rest) n
  | length {v : Value} {n : Nat} {rest : List Value} (h : v.length = .ok n) :
      BuiltinInt g .len (v :: rest) n
  | line {tag : String} {n : Nat} {rest : List Value} (h : g.tags.get? tag = some n) :
      BuiltinInt g .line (.str tag :: rest) n

/-- The integers that methods give. -/
inductive MethodInt : Method → Value → List Value → Int → Prop where
  | token {r : Record} {n : Nat} {args : List Value} (h : r.token = some n)
      (hfits : Integer.fits n = true) : MethodInt .token (.record r) args n
  | field {v : Value} {path text : String} {n : Int} {rest : List Value}
      (hfind : v.find path = .ok (.str text))
      (h : Integer.Numeral (Text.trimChars text.toList) n) (hfits : Integer.fits n = true) :
      MethodInt .findInt v (.str path :: rest) n

theorem argument_ok {function : String} {args : List Value} {v : Value}
    (h : argument function args 1 = .ok v) : ∃ rest, args = v :: rest := by
  cases args with
  | nil => cases h
  | cons w rest =>
    obtain rfl := Except.ok.inj h
    exact ⟨rest, rfl⟩

theorem stringArgument_ok {function : String} {args : List Value} {text : String}
    (h : stringArgument function args 1 = .ok text) : ∃ rest, args = .str text :: rest := by
  cases args with
  | nil => cases h
  | cons w rest =>
    cases w with
    | str s =>
      obtain rfl := Except.ok.inj h
      exact ⟨rest, rfl⟩
    | _ => cases h

theorem toInt_ok {g : Environment} {v w : Value} {rest : List Value} (h : v.toInt = .ok w) :
    ∃ n, w = .int n ∧ BuiltinInt g .int (v :: rest) n := by
  unfold Value.toInt at h
  split at h
  · obtain rfl := Except.ok.inj h
    exact ⟨_, rfl, .int⟩
  · split at h
    · cases h
    · rename_i n hn
      obtain rfl := Except.ok.inj h
      obtain ⟨hnumeral, hfits⟩ := Integer.signed?_eq_some hn
      exact ⟨n, rfl, .numeral hnumeral hfits⟩
  · cases h

/-- Any step ends somehow. -/
theorem Run.Triple.any {α : Type} (m : Run α) :
    Run.Triple (fun _ => True) m (fun _ _ => True) fun _ _ => True := by
  intro s _
  rcases m s with ⟨_ | _ | _, _⟩ <;> trivial

section Functions

variable {g : Environment} {line : Nat}

/-- A value without integers, or an integer that `P` holds of. -/
def Gives (P : Int → Prop) (v : Value) : Prop := v.ints = [] ∨ ∃ n, v = .int n ∧ P n

/-- A step that ends with such a value, if it ends well. -/
def GivesInt (P : Int → Prop) (m : Run Value) : Prop :=
  Run.Triple (fun _ => True) m (fun v _ => Gives P v) fun _ _ => True

namespace GivesInt

variable {P : Int → Prop}

theorem value {v : Value} (h : v.ints = []) : GivesInt P (pure v) := .pure fun _ _ => .inl h

theorem after {α : Type} (m : Run α) {k : α → Run Value} (h : ∀ a, GivesInt P (k a)) :
    GivesInt P (m >>= k) := .bind (.any m) h

theorem fails (f : Failure) : GivesInt P (Run.fail f) := .fail fun _ _ => trivial

theorem onLine {r : Except Fault Value} (h : ∀ v, r = .ok v → Gives P v) :
    GivesInt P (Run.onLine line r) :=
  Run.Triple.onLine (fun v hv _ _ => h v hv) fun _ _ _ _ => trivial

theorem bindLine {α : Type} {r : Except Fault α} {k : α → Run Value}
    (h : ∀ a, r = .ok a → GivesInt P (k a)) : GivesInt P (Run.onLine line r >>= k) := by
  cases r with
  | ok a => exact h a rfl
  | error f => exact fails _

end GivesInt

theorem assertTrue_gives (P : Int → Prop) (args : List Value) :
    GivesInt P (assertTrue line args) := by
  unfold assertTrue
  split
  · exact .fails _
  · exact .value rfl
  · exact .fails _
  · exact .fails _

theorem assertEqual_gives (P : Int → Prop) (wanted : Bool) (function : String)
    (args : List Value) : GivesInt P (assertEqual line wanted function args) := by
  refine .after _ fun expected => .after _ fun actual => ?_
  simp only
  split
  · exact .value rfl
  · split <;> exact .fails _

theorem callBuiltin_gives (b : Builtin) (args : List Value) :
    GivesInt (BuiltinInt g b args) (callBuiltin g line b args) := by
  cases b with
  | send => exact .after _ fun _ => .after _ fun _ => .value rfl
  | expect => exact .after _ fun _ => .after _ fun _ => .after _ fun _ => .value rfl
  | assert => exact assertTrue_gives _ args
  | assertEq | assertNe => exact assertEqual_gives _ _ _ args
  | log => exact .after _ fun _ => .value rfl
  | format => exact .after _ fun _ => .after _ fun _ => .value rfl
  | int =>
    refine .onLine fun v hv => ?_
    cases harg : argument Builtin.int.name args 1 with
    | error f =>
      rw [harg] at hv
      cases hv
    | ok w =>
      rw [harg] at hv
      obtain ⟨rest, rfl⟩ := argument_ok harg
      exact .inr (toInt_ok hv)
  | str => exact .after _ fun _ => .value rfl
  | len =>
    refine .bindLine fun n hn => .pure fun _ _ => ?_
    cases harg : argument Builtin.len.name args 1 with
    | error f =>
      rw [harg] at hn
      cases hn
    | ok w =>
      rw [harg] at hn
      obtain ⟨rest, rfl⟩ := argument_ok harg
      exact .inr ⟨n, rfl, .length hn⟩
  | line =>
    refine .bindLine fun tag htag => ?_
    obtain ⟨rest, rfl⟩ := stringArgument_ok htag
    split
    · exact .fails _
    · rename_i n hn
      exact .pure fun _ _ => .inr ⟨n, rfl, .line hn⟩
  | fileName =>
    refine .after _ fun path => ?_
    split
    · exact .fails _
    · exact .value rfl
  | buildDelta => exact .after _ fun _ => .after _ fun _ => .after _ fun _ => .value rfl

theorem bind_ok {α β : Type} {r : Except Fault α} {k : α → Except Fault β} {b : β}
    (h : (r >>= k) = .ok b) : ∃ a, r = .ok a ∧ k a = .ok b := by
  cases r with
  | ok a => exact ⟨a, rfl, h⟩
  | error f => cases h

theorem containsValue_gives {P : Int → Prop} {v w x : Value}
    (h : Method.containsValue v w = .ok x) : Gives P x := by
  unfold Method.containsValue at h
  split at h <;> cases h <;> exact .inl rfl

theorem method_gives {m : Method} {v w : Value} {args : List Value}
    (h : m.apply v args = .ok w) : Gives (MethodInt m v args) w := by
  cases m with
  | find =>
    obtain ⟨path, -, hw⟩ := bind_ok h
    exact .inl (Value.find_ints hw)
  | has =>
    obtain ⟨path, -, hw⟩ := bind_ok h
    obtain rfl := Except.ok.inj hw
    exact .inl rfl
  | findString =>
    obtain ⟨path, -, hw⟩ := bind_ok h
    obtain ⟨x, -, hw⟩ := bind_ok hw
    split at hw
    · obtain rfl := Except.ok.inj hw
      exact .inl rfl
    · cases hw
  | findInt =>
    obtain ⟨path, hpath, hw⟩ := bind_ok h
    obtain ⟨rest, rfl⟩ := stringArgument_ok hpath
    obtain ⟨x, hx, hw⟩ := bind_ok hw
    split at hw
    · split at hw
      · cases hw
      · rename_i n hn
        obtain rfl := Except.ok.inj hw
        obtain ⟨hnumeral, hfits⟩ := Integer.signed?_eq_some hn
        exact .inr ⟨n, rfl, .field hx hnumeral hfits⟩
    · cases hw
  | className | kind =>
    obtain ⟨r, -, hw⟩ := bind_ok h
    obtain rfl := Except.ok.inj hw
    exact .inl rfl
  | token =>
    obtain ⟨r, hr, hw⟩ := bind_ok h
    split at hw
    · obtain rfl := Except.ok.inj hw
      exact .inl rfl
    · rename_i t ht
      split at hw
      · rename_i hfits
        obtain rfl := Except.ok.inj hw
        cases v with
        | record r' =>
          obtain rfl := Except.ok.inj hr
          exact .inr ⟨t, rfl, .token ht hfits⟩
        | _ => cases hr
      · cases hw
  | text =>
    obtain ⟨r, -, hw⟩ := bind_ok h
    split at hw <;> obtain rfl := Except.ok.inj hw <;> exact .inl rfl
  | contains =>
    obtain ⟨needle, -, hw⟩ := bind_ok h
    exact containsValue_gives hw
  | startsWith =>
    cases v with
    | str s =>
      obtain ⟨start, -, hw⟩ := bind_ok h
      obtain rfl := Except.ok.inj hw
      exact .inl rfl
    | _ => cases h

end Functions

/-! ## Expressions -/

variable {g : Environment} {s t u : Session}

theorem lookup_done {line : Nat} {name : String} {v : Value}
    (h : lookup g line name s = (.done v, u)) :
    s.scopes.get? name = some v ∨ v = .map g.tags ∨ v.ints = [] := by
  obtain ⟨scopes, _, hscopes, h⟩ := done_of_bind h
  obtain ⟨hs, rfl⟩ := Prod.mk.inj hscopes
  obtain rfl := Outcome.done.inj hs
  cases hget : s.scopes.get? name with
  | some w =>
    rw [hget] at h
    obtain ⟨rfl, -⟩ := done_of_pure h
    exact .inl rfl
  | none =>
    rw [hget] at h
    obtain ⟨hv, -⟩ := done_of_onLine h
    unfold globalValue at hv
    split at hv <;> cases hv
    · exact .inr (.inl rfl)
    · exact .inr (.inr rfl)
    · exact .inr (.inr rfl)

/-- How an expression came to its value.  Values without integers are told apart no further. -/
inductive Evaluated (g : Environment) : Expr → Session → Value → Session → Prop where
  | free {e : Expr} {v : Value} {s u : Session} (h : v.ints = []) : Evaluated g e s v u
  | int {p : Position} {n : Int} {s : Session} : Evaluated g (.int p n) s (.int n) s
  | list {p : Position} {es : List Expr} {vs : List Value} {s u : Session}
      (h : evalAll g es s = (.done vs, u)) : Evaluated g (.list p es) s (.list vs) u
  | ident {p : Position} {name : String} {v : Value} {s u : Session}
      (h : lookup g p.line name s = (.done v, u)) : Evaluated g (.ident p name) s v u
  | unary {p : Position} {op : UnaryOp} {e : Expr} {v w : Value} {s u : Session}
      (he : eval g e s = (.done v, u)) (h : op.apply v = .ok w) :
      Evaluated g (.unary p op e) s w u
  | binary {p : Position} {op : BinaryOp} {l r : Expr} {v w x : Value} {s t u : Session}
      (hand : op ≠ .and) (hor : op ≠ .or) (hl : eval g l s = (.done v, t))
      (hr : eval g r t = (.done w, u)) (h : op.apply v w = .ok x) :
      Evaluated g (.binary p op l r) s x u
  | field {p : Position} {e : Expr} {name : String} {v w : Value} {s u : Session}
      (he : eval g e s = (.done v, u)) (h : v.field name = .ok w) :
      Evaluated g (.field p e name) s w u
  | index {p : Position} {e i : Expr} {v w x : Value} {s t u : Session}
      (he : eval g e s = (.done v, t)) (hi : eval g i t = (.done w, u))
      (h : v.index w = .ok x) : Evaluated g (.index p e i) s x u
  | call {p : Position} {name : String} {es : List Expr} {b : Builtin} {vs : List Value} {v : Value}
      {s t u : Session} (hargs : evalAll g es s = (.done vs, t))
      (hname : Builtin.ofName? name = some b)
      (h : callBuiltin g p.line b vs t = (.done v, u)) : Evaluated g (.call p name es) s v u
  | method {p : Position} {e : Expr} {name : String} {es : List Expr} {m : Method} {v w : Value}
      {vs : List Value} {s t u : Session} (he : eval g e s = (.done v, t))
      (hargs : evalAll g es t = (.done vs, u)) (hname : Method.ofName? name = some m)
      (h : m.apply v vs = .ok w) : Evaluated g (.method p e name es) s w u

theorem evalAll_cons_done {e : Expr} {es : List Expr} {vs : List Value}
    (h : evalAll g (e :: es) s = (.done vs, u)) :
    ∃ v t rest, eval g e s = (.done v, t) ∧ evalAll g es t = (.done rest, u) ∧ vs = v :: rest := by
  obtain ⟨v, t, hv, h⟩ := done_of_bind h
  obtain ⟨rest, w, hrest, h⟩ := done_of_bind h
  obtain ⟨rfl, rfl⟩ := done_of_pure h
  exact ⟨v, t, rest, hv, hrest, rfl⟩

/-- The right side of a logical operator decides as a bool. -/
theorem decided_bool {m : Run Value} {line : Nat} {v : Value}
    (h : (m >>= fun r => asCondition line r >>= fun b => pure (Value.bool b)) s = (.done v, u)) :
    v.ints = [] := by
  obtain ⟨_, _, -, h⟩ := done_of_bind h
  obtain ⟨_, _, -, h⟩ := done_of_bind h
  obtain ⟨rfl, -⟩ := done_of_pure h
  rfl

theorem eval_done {e : Expr} {v : Value} (h : eval g e s = (.done v, u)) :
    Evaluated g e s v u := by
  cases e with
  | int p n =>
    obtain ⟨rfl, rfl⟩ := done_of_pure h
    exact .int
  | str p text | bool p b | null p =>
    obtain ⟨rfl, rfl⟩ := done_of_pure h
    exact .free rfl
  | list p es =>
    obtain ⟨vs, t, hvs, h⟩ := done_of_bind h
    obtain ⟨rfl, rfl⟩ := done_of_pure h
    exact .list hvs
  | ident p name => exact .ident h
  | unary p op e =>
    obtain ⟨w, t, hw, h⟩ := done_of_bind h
    obtain ⟨hv, rfl⟩ := done_of_onLine h
    exact .unary hw hv
  | binary p op l r =>
    by_cases hand : op = .and
    · subst hand
      obtain ⟨_, _, -, h⟩ := done_of_bind h
      obtain ⟨b, _, -, h⟩ := done_of_bind h
      cases b with
      | true => exact .free (decided_bool h)
      | false =>
        obtain ⟨rfl, -⟩ := done_of_pure h
        exact .free rfl
    by_cases hor : op = .or
    · subst hor
      obtain ⟨_, _, -, h⟩ := done_of_bind h
      obtain ⟨b, _, -, h⟩ := done_of_bind h
      cases b with
      | true =>
        obtain ⟨rfl, -⟩ := done_of_pure h
        exact .free rfl
      | false => exact .free (decided_bool h)
    rw [eval_binary g p hand hor] at h
    obtain ⟨w, t, hw, h⟩ := done_of_bind h
    obtain ⟨x, t', hx, h⟩ := done_of_bind h
    obtain ⟨hv, rfl⟩ := done_of_onLine h
    exact .binary hand hor hw hx hv
  | field p e name =>
    obtain ⟨w, t, hw, h⟩ := done_of_bind h
    obtain ⟨hv, rfl⟩ := done_of_onLine h
    exact .field hw hv
  | index p e i =>
    obtain ⟨w, t, hw, h⟩ := done_of_bind h
    obtain ⟨x, t', hx, h⟩ := done_of_bind h
    obtain ⟨hv, rfl⟩ := done_of_onLine h
    exact .index hw hx hv
  | call p name es =>
    obtain ⟨vs, t, hvs, h⟩ := done_of_bind h
    unfold call at h
    cases hname : Builtin.ofName? name with
    | none =>
      rw [hname] at h
      exact nomatch (done_of_onLine h).1
    | some b =>
      rw [hname] at h
      exact .call hvs hname h
  | method p e name es =>
    obtain ⟨w, t, hw, h⟩ := done_of_bind h
    obtain ⟨vs, t', hvs, h⟩ := done_of_bind h
    unfold methodCall at h
    cases hname : Method.ofName? name with
    | none =>
      rw [hname] at h
      exact nomatch (done_of_onLine h).1
    | some m =>
      rw [hname] at h
      obtain ⟨hv, rfl⟩ := done_of_onLine h
      exact .method hw hvs hname hv

/-- The integer that an expression comes to from a session. -/
inductive IntSource (g : Environment) : Expr → Session → Int → Prop where
  | literal {p : Position} {n : Int} {s : Session} : IntSource g (.int p n) s n
  | stored {p : Position} {name : String} {n : Int} {s : Session}
      (h : s.scopes.get? name = some (.int n)) : IntSource g (.ident p name) s n
  | negation {p : Position} {e : Expr} {a : Int} {s t : Session}
      (he : eval g e s = (.done (.int a), t)) : IntSource g (.unary p .negate e) s (-a)
  | arithmetic {p : Position} {op : BinaryOp} {l r : Expr} {a b n : Int} {s t u : Session}
      (hl : eval g l s = (.done (.int a), t)) (hr : eval g r t = (.done (.int b), u))
      (h : Exact op a b n) : IntSource g (.binary p op l r) s n
  | item {p : Position} {e i : Expr} {items : List Value} {k n : Int} {s t u : Session}
      (he : eval g e s = (.done (.list items), t)) (hi : eval g i t = (.done (.int k), u))
      (hk : 0 ≤ k) (h : items[k.toNat]? = some (.int n)) : IntSource g (.index p e i) s n
  | tagField {p : Position} {e : Expr} {name : String} {tags : LineTags} {n : Nat} {s t : Session}
      (he : eval g e s = (.done (.map tags), t)) (h : tags.get? name = some n) :
      IntSource g (.field p e name) s n
  | tagIndex {p : Position} {e i : Expr} {name : String} {tags : LineTags} {n : Nat}
      {s t u : Session} (he : eval g e s = (.done (.map tags), t))
      (hi : eval g i t = (.done (.str name), u)) (h : tags.get? name = some n) :
      IntSource g (.index p e i) s n
  | call {p : Position} {name : String} {es : List Expr} {b : Builtin} {vs : List Value} {n : Int}
      {s t : Session} (hargs : evalAll g es s = (.done vs, t))
      (hname : Builtin.ofName? name = some b) (h : BuiltinInt g b vs n) :
      IntSource g (.call p name es) s n
  | method {p : Position} {e : Expr} {name : String} {es : List Expr} {m : Method} {v : Value}
      {vs : List Value} {n : Int} {s t u : Session} (he : eval g e s = (.done v, t))
      (hargs : evalAll g es t = (.done vs, u)) (hname : Method.ofName? name = some m)
      (h : MethodInt m v vs n) : IntSource g (.method p e name es) s n

theorem bounded_ok {m n : Int} (h : bounded m = .ok (.int n)) : n = m := by
  unfold bounded at h
  split at h <;> cases h
  rfl

theorem divide_ok {a b m n : Int} (h : divide a b m = .ok (.int n)) : b ≠ 0 ∧ n = m := by
  unfold divide at h
  split at h
  · cases h
  · rename_i hb
    split at h <;> cases h
    exact ⟨hb, rfl⟩

theorem applyInts_exact {op : BinaryOp} (hop : op.isArithmetic = true) {a b n : Int}
    (h : op.applyInts a b = .ok (.int n)) : Exact op a b n := by
  cases op with
  | add =>
    obtain rfl := bounded_ok h
    exact .sum
  | sub =>
    obtain rfl := bounded_ok h
    exact .difference
  | mul =>
    obtain rfl := bounded_ok h
    exact .product
  | div =>
    obtain ⟨hb, rfl⟩ := divide_ok h
    exact .quotient (truncated_iff.mpr ⟨hb, rfl, rfl⟩)
  | rem =>
    obtain ⟨hb, rfl⟩ := divide_ok h
    exact .remainder (truncated_iff.mpr ⟨hb, rfl, rfl⟩)
  | _ => exact nomatch hop

theorem Gives.int {P : Int → Prop} {n : Int} (h : Gives P (.int n)) : P n := by
  obtain hfree | ⟨m, hm, hP⟩ := h
  · exact nomatch hfree
  · cases hm
    exact hP

/-- An expression that comes to an integer comes to the exact integer of its form. -/
theorem eval_int {e : Expr} {n : Int} (h : eval g e s = (.done (.int n), u)) :
    IntSource g e s n := by
  cases eval_done h with
  | free hfree => exact nomatch hfree
  | int => exact .literal
  | ident hlookup =>
    obtain hvar | hmap | hfree := lookup_done hlookup
    · exact .stored hvar
    · exact nomatch hmap
    · exact nomatch hfree
  | unary he happly =>
    obtain hfree | ⟨a, rfl, rfl, hbounded⟩ := unary_ints happly
    · exact nomatch hfree
    · unfold bounded at hbounded
      split at hbounded <;> cases hbounded
      exact .negation he
  | binary _ _ hl hr happly =>
    obtain hfree | ⟨vs, ws, -, -, hlist⟩ | ⟨a, b, hop, rfl, rfl, hints⟩ := binary_ints happly
    · exact nomatch hfree
    · exact nomatch hlist
    · exact .arithmetic hl hr (applyInts_exact hop hints)
  | field he hfield =>
    obtain hfree | ⟨tags, n, rfl, htag, hn⟩ := Value.field_ints hfield
    · exact nomatch hfree
    · cases hn
      exact .tagField he htag
  | index he hi hindex =>
    obtain hfree | ⟨items, k, rfl, rfl, hk, hitem⟩ | ⟨tags, name, n, rfl, rfl, htag, hn⟩ :=
      Value.index_ints hindex
    · exact nomatch hfree
    · exact .item he hi hk hitem
    · cases hn
      exact .tagIndex he hi htag
  | call hargs hname hcall =>
    exact .call hargs hname ((callBuiltin_gives _ _).done trivial hcall).int
  | method he hargs hname hmethod => exact .method he hargs hname (method_gives hmethod).int

end Script
end CheckScript
