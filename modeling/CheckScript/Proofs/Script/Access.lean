/-
Scripts look into records as paths do.

A script can look into a record by its methods, and step by step by fields and indexes.  A step
goes from a value of the script to the next, a path from a record value to the next, and each
value on the way stands for the record value on the path (`StandsFor`).  So all of them find
the same (`access_agrees`).
-/
import CheckScript.Proofs.Script.Resolution
import CheckScript.Proofs.Script.Spelling
import CheckScript.Proofs.Text.Lines
import CheckScript.Record.Find

namespace CheckScript

/-! ## Dotted paths

A path that is put together of two is followed through the one and then through the other, and
names with dots between them are the steps of the path that they make. -/

namespace RecordValue

/-- A text that is one step of a path. -/
structure IsStep (name : String) : Prop where
  nonempty : name ≠ ""
  undotted : '.' ∉ name.toList

theorem isStep_toString (n : Nat) : IsStep (toString n) where
  nonempty h := by
    have hdigits : (toString n).toList = Nat.toDigits 10 n := Nat.toList_repr
    rw [h] at hdigits
    exact Nat.toDigits_ne_nil hdigits.symm
  undotted h := by
    have hdigits : (toString n).toList = Nat.toDigits 10 n := Nat.toList_repr
    rw [hdigits] at h
    exact absurd (Integer.isDigit_of_mem_toDigits h) (by decide)

theorem segments_empty : segments "" = [] := rfl

/-- A dot ends one part of a path and begins the next. -/
theorem segments_dot (p q : String) : segments (p ++ "." ++ q) = segments p ++ segments q := by
  have hpath : (p ++ "." ++ q).toList = p.toList ++ '.' :: q.toList := by
    simp
  unfold segments
  rw [hpath, Text.cut_append_cons, List.filter_append, List.map_append]

theorem segments_step {name : String} (h : IsStep name) : segments name = [name] := by
  have hkept : [name.toList].filter (! ·.isEmpty) = [name.toList] :=
    List.filter_cons_of_pos (by simp [h.nonempty])
  unfold segments
  rw [Text.cut_of_not_mem h.undotted, hkept]
  exact congrArg (fun name => [name]) String.ofList_toList

theorem segments_joinWith {names : List String} (h : ∀ name ∈ names, IsStep name) :
    segments (Text.joinWith "." names) = names := by
  induction names with
  | nil => exact segments_empty
  | cons name names ih =>
    obtain ⟨hname, hnames⟩ := List.forall_mem_cons.mp h
    have hfirst := segments_step hname
    cases names with
    | nil =>
      rw [Text.joinWith, String.intercalate_singleton]
      exact hfirst
    | cons next names =>
      have hrest : segments (".".intercalate (next :: names)) = next :: names := ih hnames
      rw [Text.joinWith, String.intercalate_cons_cons, segments_dot, hfirst, hrest]
      rfl

theorem follow_append (v : RecordValue) (ps qs : List String) :
    v.follow (ps ++ qs) = (v.follow ps).bind (·.follow qs) := by
  induction ps generalizing v with
  | nil => rfl
  | cons p ps ih =>
    rw [List.cons_append, follow, follow]
    cases v.step p with
    | none => rfl
    | some w => exact ih w

theorem find?_dot (v : RecordValue) (p q : String) :
    v.find? (p ++ "." ++ q) = (v.find? p).bind (·.find? q) := by
  unfold find?
  rw [segments_dot, follow_append]

theorem find?_step (v : RecordValue) {name : String} (h : IsStep name) :
    v.find? name = v.step name := by
  unfold find?
  rw [segments_step h, follow]
  cases v.step name <;> rfl

end RecordValue

namespace Script

open RecordValue

/-! ## Values and what they stand for -/

theorem isStep_of_isName {name : String} (h : isName name = true) : IsStep name := by
  unfold isName at h
  split at h
  · cases h
  · rename_i c cs hname
    simp only [Bool.and_eq_true, List.all_eq_true] at h
    obtain ⟨⟨hstart, hmore⟩, -⟩ := h
    refine ⟨?_, ?_⟩
    · rintro rfl
      cases hname
    · rw [hname, List.mem_cons, not_or]
      refine ⟨?_, fun hdot => ?_⟩
      · rintro rfl
        exact absurd hstart (by decide)
      · exact absurd (hmore '.' hdot) (by decide)

/-- A record stands for its results, and a value from inside a record for what it was there. -/
inductive StandsFor : Value → RecordValue → Prop where
  | record (r : Record) : StandsFor (.record r) r.results
  | inner (w : RecordValue) : StandsFor (.ofRecordValue w) w

/-- An operation gives the value that is there to be found, or else a fault. -/
def Finds (result : Except Fault Value) : Option Value → Prop
  | some v => result = .ok v
  | none => ∃ fault, result = .error fault

theorem finds_of_node {v : Value} {n : RecordValue} (h : v.node? = some n) (path : String) :
    Finds (v.find path) ((n.find? path).map .ofRecordValue) := by
  unfold Value.find
  rw [h]
  cases hfound : n.find? path with
  | none =>
    simp only [hfound]
    exact ⟨_, rfl⟩
  | some w =>
    simp only [hfound]
    rfl

theorem finds_of_step {v : Value} {n : RecordValue} (h : v.node? = some n) {name : String}
    (hname : IsStep name) : Finds (v.find name) ((n.step name).map .ofRecordValue) := by
  rw [← find?_step n hname]
  exact finds_of_node h name

namespace StandsFor

variable {v : Value} {n : RecordValue}

/-- A constant has become a string; all else can be looked into. -/
theorem shape (h : StandsFor v n) :
    (∃ r, v = .record r ∧ n = r.results) ∨ v = .node n ∨ ∃ text, v = .str text ∧ n = .const text := by
  cases h with
  | record r => exact .inl ⟨r, rfl, rfl⟩
  | inner =>
    cases n with
    | const text => exact .inr (.inr ⟨text, rfl, rfl⟩)
    | tuple fields | list items => exact .inr (.inl rfl)

theorem field (h : StandsFor v n) {name : String} (hname : IsStep name) :
    Finds (v.field name) ((n.step name).map .ofRecordValue) := by
  rcases h.shape with ⟨r, rfl, rfl⟩ | rfl | ⟨text, rfl, rfl⟩
  · show Finds ((Value.record r).find name) _
    exact finds_of_step rfl hname
  · show Finds ((Value.node n).find name) _
    exact finds_of_step rfl hname
  · exact ⟨.noFields .str name, rfl⟩

theorem index (h : StandsFor v n) (i : Nat) :
    Finds (v.index (.int i)) ((n.step (toString i)).map .ofRecordValue) := by
  rcases h.shape with ⟨r, rfl, rfl⟩ | rfl | ⟨text, rfl, rfl⟩
  · show Finds ((Value.record r).find (toString i)) _
    exact finds_of_step rfl (isStep_toString i)
  · show Finds ((Value.node n).find (toString i)) _
    exact finds_of_step rfl (isStep_toString i)
  · exact ⟨.notIndexable .str .int, rfl⟩

end StandsFor

/-! ## Evaluating a chain -/

/-- A step of a chain, at its place. -/
inductive Access where
  | field (p : Position) (name : String)
  | item (p : Position) (index : Expr)

/-- The access to a part of the object. -/
def Access.on (object : Expr) : Access → Expr
  | field p name => .field p object name
  | item p index => .index p object index

/-- The chain of the accesses, the first of them to the object. -/
def accessAll (object : Expr) (steps : List Access) : Expr := steps.foldl Access.on object

/-- The access names a step of a path: by an identifier, or by a number that its index comes to
without changing anything. -/
inductive Access.Names (g : Environment) (s : Session) : Access → String → Prop where
  | field {p : Position} {name : String} (hname : isName name = true) :
      Names g s (.field p name) name
  | item {p : Position} {index : Expr} {i : Nat} (hindex : eval g index s = (.done (.int i), s)) :
      Names g s (.item p index) (toString i)

theorem isStep_of_names {g : Environment} {s : Session} {steps : List Access}
    {names : List String} (h : List.Forall₂ (Access.Names g s) steps names) :
    ∀ name ∈ names, IsStep name := by
  induction h with
  | nil => exact fun _ hname => nomatch hname
  | cons hstep _ ih =>
    refine List.forall_mem_cons.mpr ⟨?_, ih⟩
    cases hstep with
    | field hname => exact isStep_of_isName hname
    | item => exact isStep_toString _

/-- A step ends with the value that is there to be found, or else with a fault of the script, and
leaves the session `t`. -/
structure ComesTo (r : Outcome Value × Session) (t : Session) (there : Option Value) : Prop where
  found : ∀ v, there = some v → r = (.done v, t)
  missing : there = none → ∃ line fault, r = (.failed (.script line fault []), t)

theorem comesTo_of_finds {e : Expr} {g : Environment} {s t : Session} {line : Nat}
    {result : Except Fault Value} {there : Option Value}
    (heval : eval g e s = Run.onLine line result t) (h : Finds result there) :
    ComesTo (eval g e s) t there where
  found := by
    rintro v rfl
    obtain rfl : result = .ok v := h
    exact heval
  missing := by
    rintro rfl
    obtain ⟨fault, rfl⟩ := h
    exact ⟨line, fault, heval⟩

section Chains

variable {g : Environment} {s t : Session} {e : Expr} {v : Value} {n : RecordValue}

theorem eval_access (he : eval g e s = (.done v, t)) (h : StandsFor v n) {step : Access}
    {name : String} (hstep : step.Names g t name) :
    ComesTo (eval g (step.on e) s) t ((n.step name).map .ofRecordValue) := by
  cases hstep with
  | @field p _ hname =>
    have heval : eval g (.field p e name) s = Run.onLine p.line (v.field name) t := by
      rw [eval, Run.bind_apply, he]
    exact comesTo_of_finds heval (h.field (isStep_of_isName hname))
  | @item p index i hindex =>
    have heval : eval g (.index p e index) s = Run.onLine p.line (v.index (.int i)) t := by
      rw [eval, Run.bind_apply, he]
      show (eval g index >>= fun i => Run.onLine p.line (v.index i)) t = _
      rw [Run.bind_apply, hindex]
    exact comesTo_of_finds heval (h.index i)

/-- An object that cannot be evaluated leaves nothing to go on with. -/
theorem eval_accessAll_failed {f : Failure} (he : eval g e s = (.failed f, t)) (steps : List Access) :
    eval g (accessAll e steps) s = (.failed f, t) := by
  induction steps generalizing e with
  | nil => exact he
  | cons step steps ih =>
    refine ih ?_
    cases step with
    | field p name =>
      show eval g (.field p e name) s = _
      rw [eval, Run.bind_apply, he]
    | item p index =>
      show eval g (.index p e index) s = _
      rw [eval, Run.bind_apply, he]

theorem eval_accessAll {steps : List Access} {names : List String}
    (hsteps : List.Forall₂ (Access.Names g t) steps names) (hne : steps ≠ [])
    (he : eval g e s = (.done v, t)) (h : StandsFor v n) :
    ComesTo (eval g (accessAll e steps) s) t ((n.follow names).map .ofRecordValue) := by
  induction hsteps generalizing e v n with
  | nil => exact absurd rfl hne
  | @cons step name steps names hstep hsteps ih =>
    have haccess := eval_access he h hstep
    show ComesTo (eval g (accessAll (step.on e) steps) s) t _
    rw [follow]
    cases hthere : n.step name with
    | none =>
      rw [hthere] at haccess
      obtain ⟨line, fault, hfailed⟩ := haccess.missing rfl
      have hchain := eval_accessAll_failed hfailed steps
      refine ⟨fun _ hnone => ?_, fun _ => ⟨line, fault, hchain⟩⟩
      cases hnone
    | some w =>
      rw [hthere] at haccess
      have hdone := haccess.found (.ofRecordValue w) rfl
      cases hsteps with
      | nil => exact haccess
      | cons => exact ih (List.cons_ne_nil _ _) hdone (.inner w)

end Chains

/-! ## Methods of records -/

theorem ofName?_name (m : Method) : Method.ofName? m.name = some m := by
  cases m <;> rfl

/-- A call of a method with one argument, the object evaluated before the argument. -/
theorem eval_method {g : Environment} {s t u : Session} {e arg : Expr} {v w : Value}
    (he : eval g e s = (.done v, t)) (harg : eval g arg t = (.done w, u)) (m : Method)
    (p : Position) :
    eval g (.method p e m.name [arg]) s = Run.onLine p.line (m.apply v [w]) u := by
  have hargs : evalAll g [arg] t = (.done [w], u) := by
    rw [evalAll, Run.bind_apply, harg]
    rfl
  rw [eval, Run.bind_apply, he]
  show (evalAll g [arg] >>= fun ws => methodCall p.line v m.name ws) t = _
  rw [Run.bind_apply, hargs]
  show methodCall p.line v m.name [w] u = _
  rw [methodCall, ofName?_name]

theorem finds_find (r : Record) (path : String) :
    Finds (Method.find.apply (.record r) [.str path]) ((r.find? path).map .ofRecordValue) :=
  finds_of_node (v := .record r) rfl path

/-- A method that reads the text of a constant, and turns down all else. -/
theorem finds_constant (r : Record) (path : String) {read : String → Except Fault Value}
    {other : Value → Fault} {value : String → Option Value}
    (hread : ∀ text, Finds (read text) (value text)) :
    Finds ((Method.find.apply (.record r) [.str path]).bind fun
        | .str text => read text
        | w => .error (other w))
      ((r.findString? path).bind value) := by
  have hfind := finds_find r path
  rw [Record.findString?]
  cases hfound : r.find? path with
  | none =>
    rw [hfound] at hfind
    obtain ⟨fault, hfault⟩ := hfind
    rw [hfault]
    exact ⟨fault, rfl⟩
  | some w =>
    rw [hfound] at hfind
    have hok : Method.find.apply (.record r) [.str path] = .ok (.ofRecordValue w) := hfind
    rw [hok]
    cases w with
    | const text => exact hread text
    | tuple fields | list items => exact ⟨_, rfl⟩

theorem finds_findString (r : Record) (path : String) :
    Finds (Method.findString.apply (.record r) [.str path]) ((r.findString? path).map .str) := by
  rw [Option.map_eq_bind]
  exact finds_constant r path fun text => rfl

theorem finds_findInt (r : Record) (path : String) :
    Finds (Method.findInt.apply (.record r) [.str path]) ((r.findInt? path).map .int) := by
  rw [Record.findInt?, Option.map_bind]
  refine finds_constant r path fun text => ?_
  show Finds _ ((Record.integerOf? text).map .int)
  cases Record.integerOf? text with
  | none => exact ⟨_, rfl⟩
  | some n => rfl

/-! ## All ways to look into a record -/

/-- A path of two parts is followed through the one and then through the other.  Wherever an
expression comes to a record, its methods find what the record has at a path, and a chain of
identifiers and indexes finds what the record has at the path of its steps, as the value that a
script makes of it; where the record has nothing there, they end with a fault. -/
theorem access_agrees :
    (∀ (v : RecordValue) (p q : String),
      v.find? (p ++ "." ++ q) = (v.find? p).bind (·.find? q)) ∧
    ∀ (g : Environment) (s t : Session) (e : Expr) (r : Record),
      eval g e s = (.done (.record r), t) →
      (∀ (place : Position) (arg : Expr) (path : String) (u : Session),
        eval g arg t = (.done (.str path), u) →
        eval g (.method place e "has" [arg]) s = (.done (.bool (r.find? path).isSome), u) ∧
        ComesTo (eval g (.method place e "find" [arg]) s) u
          ((r.find? path).map .ofRecordValue) ∧
        ComesTo (eval g (.method place e "find_string" [arg]) s) u
          ((r.findString? path).map .str) ∧
        ComesTo (eval g (.method place e "find_int" [arg]) s) u ((r.findInt? path).map .int)) ∧
      ∀ (steps : List Access) (names : List String), steps ≠ [] →
        List.Forall₂ (Access.Names g t) steps names →
        ComesTo (eval g (accessAll e steps) s) t
          ((r.find? (Text.joinWith "." names)).map .ofRecordValue) := by
  refine ⟨find?_dot, fun g s t e r he => ⟨fun place arg path u harg => ?_, ?_⟩⟩
  · refine ⟨?_, ?_, ?_, ?_⟩
    · exact eval_method he harg .has place
    · exact comesTo_of_finds (eval_method he harg .find place) (finds_find r path)
    · exact comesTo_of_finds (eval_method he harg .findString place) (finds_findString r path)
    · exact comesTo_of_finds (eval_method he harg .findInt place) (finds_findInt r path)
  · intro steps names hne hsteps
    have hpath : segments (Text.joinWith "." names) = names := segments_joinWith (isStep_of_names hsteps)
    rw [Record.find?, RecordValue.find?, hpath]
    exact eval_accessAll hsteps hne he (.record r)

/-- A record with a list of results, and a name that comes twice. -/
def stacked : Record :=
  { Record.raw "" with
    kind := .result
    className := "done"
    results := .tuple [("stack", .list
      [.tuple [("frame", .tuple [("level", .const "0")])],
        .tuple [("frame", .tuple [("level", .const " 1 "), ("level", .const "2")])]])]
    text := none }

/-- The record as the variable `r`, beside a number `i`. -/
def holding : Session := { silent with scopes := [[("r", .record stacked), ("i", .int 1)]] }

/-- The accesses of `r.stack[i].frame.level`. -/
def levelSteps : List Access :=
  [.field ⟨1, 2⟩ "stack", .item ⟨1, 8⟩ (.ident ⟨1, 9⟩ "i"), .field ⟨1, 11⟩ "frame",
    .field ⟨1, 17⟩ "level"]

theorem access_agrees_stacked :
    let r : Expr := .ident ⟨1, 1⟩ "r"
    let path : Expr := .str ⟨1, 12⟩ "stack.1.frame.level"
    eval quiet r holding = (.done (.record stacked), holding) ∧
    List.Forall₂ (Access.Names quiet holding) levelSteps
      ["stack", toString 1, "frame", "level"] ∧
    eval quiet (accessAll r levelSteps) holding = (.done (.str " 1 "), holding) ∧
    eval quiet (.method ⟨1, 2⟩ r "find_int" [path]) holding = (.done (.int 1), holding) := by
  intro r path
  have hr : eval quiet r holding = (.done (.record stacked), holding) := rfl
  have hi : eval quiet (.ident ⟨1, 9⟩ "i") holding = (.done (.int (1 : Nat)), holding) := rfl
  have hsteps : List.Forall₂ (Access.Names quiet holding) levelSteps
      ["stack", toString 1, "frame", "level"] :=
    .cons (.field (by decide +kernel)) (.cons (.item hi) (.cons (.field (by decide +kernel))
      (.cons (.field (by decide +kernel)) .nil)))
  have hlevel : (stacked.find? (Text.joinWith "." ["stack", toString 1, "frame", "level"])).map
      Value.ofRecordValue = some (.str " 1 ") := by decide +kernel
  have hnumber : (stacked.findInt? "stack.1.frame.level").map Value.int = some (.int 1) := by
    decide +kernel
  obtain ⟨hmethods, hchains⟩ := access_agrees.2 quiet holding holding r stacked hr
  have hchain := (hchains levelSteps _ (List.cons_ne_nil _ _) hsteps).found _ hlevel
  have hint := (hmethods ⟨1, 2⟩ path "stack.1.frame.level" holding rfl).2.2.2.found _ hnumber
  exact ⟨hr, hsteps, hchain, hint⟩

end Script
end CheckScript
