/-
Integers of a run are in range.

Integers come into a run through the literals of its script, the line tags of its source, lengths
of values, and texts and tokens of the debugger; everything else is handed on or made by an
operator that refuses to leave the range.  So wherever a run comes to, the integers in its
variables and in the values of its expressions are 64 bits wide, as long as source and values
fit into memory (`integers_exact`).
-/
import CheckScript.Proofs.Script.Alarm
import CheckScript.Proofs.Script.Integers
import CheckScript.Proofs.Script.Place
import CheckScript.Proofs.Source.Collection

namespace CheckScript
namespace Script

/-! ## Literals -/

/-- The number stands in the text as a run of digits with gaps, which no digit goes on. -/
structure Literal (text : List Char) (n : Int) (before digits after : List Char) : Prop where
  text_eq : text = before ++ (digits ++ after)
  begins : ∃ c more, digits = c :: more ∧ Text.isDigit c = true
  gapped : ∀ c ∈ digits, isDigitOrGap c = true
  ends : ∀ c, after.head? = some c → isDigitOrGap c = false
  value : n = Integer.placeValue (digits.filter Text.isDigit)

theorem ofWord_ne_int (word : String) (n : Nat) : TokenKind.ofWord word ≠ .int n := by
  unfold TokenKind.ofWord
  split <;> (intro hint; cases hint)

theorem doubleWord_ne_int {c d : Char} {n : Nat} : doubleWord c d ≠ some (.int n) := by
  unfold doubleWord
  split <;> (intro hint; cases hint)

theorem simpleWord_ne_int {c : Char} {n : Nat} : simpleWord c ≠ some (.int n) := by
  unfold simpleWord
  split <;> (intro hint; cases hint)

/-- Only digits are read as an integer. -/
theorem stretch_int {p q : Position} {c : Char} {cs : List Char} {n : Nat}
    (h : (stretch p c cs).token = some ⟨.int n, q⟩) :
    Text.isDigit c = true ∧ Integer.fits n = true ∧
      n = Integer.ofDigits (c :: (cs.takeWhile isDigitOrGap).filter Text.isDigit) := by
  unfold stretch at h
  split at h
  · exact nomatch h
  · unfold readBlockComment at h
    split at h <;> exact nomatch h
  · unfold readStringWord at h
    simp only at h
    split at h <;> exact nomatch h
  · split at h
    · exact nomatch h
    · split at h
      · rename_i hdigit
        unfold readNumber at h
        simp only at h
        split at h
        · rename_i hfits
          cases h
          exact ⟨hdigit, hfits, rfl⟩
        · exact nomatch h
      · split at h
        · exact absurd (congrArg Token.kind (Option.some.inj h)) (ofWord_ne_int _ n)
        · split at h
          · rename_i kind hkind
            obtain ⟨d, -, hd⟩ := Option.bind_eq_some_iff.mp hkind
            cases h
            exact absurd hd doubleWord_ne_int
          · split at h
            · rename_i kind hkind
              cases h
              exact absurd hkind simpleWord_ne_int
            · exact nomatch h

theorem literal_of_token {text : String} {t : Token} (ht : t ∈ (tokenize text).1) {n : Nat}
    (hkind : t.kind = .int n) :
    Integer.fits n = true ∧ ∃ before digits after, Literal text.toList n before digits after := by
  have hword : t.kind ≠ .finish := by
    rw [hkind]
    exact TokenKind.noConfusion
  obtain ⟨c, rest, ⟨before, htext, -⟩, htoken, -⟩ := tokensFrom_word ht hword
  obtain ⟨kind, place⟩ := t
  obtain rfl : kind = .int n := hkind
  obtain ⟨hdigit, hfits, rfl⟩ := stretch_int htoken
  refine ⟨hfits, before, c :: rest.takeWhile isDigitOrGap, rest.dropWhile isDigitOrGap, ?_⟩
  have hc : isDigitOrGap c = true := by rw [isDigitOrGap, hdigit, Bool.true_or]
  refine ⟨?_, ⟨c, _, rfl, hdigit⟩, ?_, ?_, ?_⟩
  · rw [List.cons_append, List.takeWhile_append_dropWhile, htext]
  · exact List.forall_mem_cons.mpr ⟨hc, List.all_eq_true.mp List.all_takeWhile⟩
  · intro d hd
    exact Bool.eq_false_iff.mpr fun hgap => by
      have hnot := List.head?_dropWhile_not isDigitOrGap rest
      rw [hd] at hnot
      exact absurd hgap (Bool.eq_false_iff.mp hnot)
  · rw [Integer.ofDigits_eq, List.filter_cons_of_pos hdigit]

/-! ## Values in range -/

/-- All integers in a value are integers of scripts. -/
def InRange (v : Value) : Prop := ∀ n ∈ v.ints, Integer.fits n = true

namespace InRange

theorem free {v : Value} (h : v.ints = []) : InRange v := by
  intro n hn
  rw [h] at hn
  exact nomatch hn

theorem int_iff {n : Int} : InRange (.int n) ↔ Integer.fits n = true := List.forall_mem_singleton

theorem list_iff {vs : List Value} : InRange (.list vs) ↔ ∀ v ∈ vs, InRange v :=
  ⟨fun h v hv n hn => h n (Value.mem_intsAll.mpr ⟨v, hv, hn⟩), fun h n hn => by
    obtain ⟨v, hv, hn⟩ := Value.mem_intsAll.mp hn
    exact h v hv n hn⟩

theorem tag {tags : LineTags} (h : InRange (.map tags)) {name : String} {n : Nat}
    (hn : tags.get? name = some n) : Integer.fits n = true :=
  h n (List.mem_map.mpr ⟨(name, n), LineTags.mem_of_find? hn, rfl⟩)

end InRange

namespace Scopes

/-- The integers in all variables are in range. -/
def Sound (scopes : Scopes) : Prop := ∀ scope ∈ scopes, ∀ e ∈ scope, InRange e.2

theorem put_range {scope : Scope} (h : ∀ e ∈ scope, InRange e.2) {v : Value} (hv : InRange v)
    (name : String) : ∀ e ∈ scope.put name v, InRange e.2 := by
  induction scope with
  | nil => exact List.forall_mem_singleton.mpr hv
  | cons entry rest ih =>
    obtain ⟨hentry, hrest⟩ := List.forall_mem_cons.mp h
    rw [Scope.put]
    split
    · exact List.forall_mem_cons.mpr ⟨hv, hrest⟩
    · exact List.forall_mem_cons.mpr ⟨hentry, ih hrest⟩

namespace Sound

variable {scopes : Scopes} {name : String} {v : Value}

theorem get? (h : scopes.Sound) (hv : scopes.get? name = some v) : InRange v := by
  have within {scope : Scope} (hscope : ∀ e ∈ scope, InRange e.2)
      (hv : scope.get? name = some v) : InRange v := by
    induction scope with
    | nil => cases hv
    | cons entry rest ih =>
      obtain ⟨hentry, hrest⟩ := List.forall_mem_cons.mp hscope
      rw [Scope.get?] at hv
      split at hv
      · obtain rfl := Option.some.inj hv
        exact hentry
      · exact ih hrest hv
  induction scopes with
  | nil => cases hv
  | cons scope outer ih =>
    obtain ⟨hscope, houter⟩ := List.forall_mem_cons.mp h
    rw [Scopes.get?, Option.or_eq_some_iff] at hv
    exact hv.elim (within hscope) fun hv => ih houter hv.2

theorem declare (h : scopes.Sound) (hv : InRange v) (name : String) :
    (scopes.declare name v).Sound := by
  cases scopes with
  | nil => exact h
  | cons scope outer =>
    obtain ⟨hscope, houter⟩ := List.forall_mem_cons.mp h
    exact List.forall_mem_cons.mpr ⟨put_range hscope hv name, houter⟩

theorem assign (h : scopes.Sound) (hv : InRange v) {changed : Scopes}
    (hassign : scopes.assign name v = some changed) : changed.Sound := by
  induction scopes generalizing changed with
  | nil => cases hassign
  | cons scope outer ih =>
    obtain ⟨hscope, houter⟩ := List.forall_mem_cons.mp h
    rw [Scopes.assign] at hassign
    split at hassign
    · obtain rfl := Option.some.inj hassign
      exact List.forall_mem_cons.mpr ⟨put_range hscope hv name, houter⟩
    · obtain ⟨inner, hinner, rfl⟩ := Option.map_eq_some_iff.mp hassign
      exact List.forall_mem_cons.mpr ⟨hscope, ih houter hinner⟩

theorem enter (h : scopes.Sound) {scope : Scope} (hscope : ∀ e ∈ scope, InRange e.2) :
    Sound (scope :: scopes) := List.forall_mem_cons.mpr ⟨hscope, h⟩

theorem fresh (h : scopes.Sound) : Sound ([] :: scopes) := h.enter (List.forall_mem_nil _)

theorem leave (h : scopes.Sound) : Sound (scopes.drop 1) :=
  fun scope hscope => h scope (List.mem_of_mem_drop hscope)

end Sound
end Scopes

/-! ## Runs -/

/-- What brings only integers in range into a run: its literals, the tags of its lines, and
lengths of values. -/
structure Fits (g : Environment) (fuel : Nat) (p : Program) (s : Session) : Prop where
  literals : ∀ path names pos n, p.nodeAt? path = some (names, .expr (.int pos n)) →
    Integer.fits n = true
  tags : InRange (.map g.tags)
  lengths : ∀ path names e t v u n, Arrives g fuel p s path t →
    p.nodeAt? path = some (names, .expr e) → eval g e t = (.done v, u) → v.length = .ok n →
    Integer.fits n = true

/-- An integer in range, whose length could be given out too. -/
def Sized (v : Value) : Prop := InRange v ∧ ∀ n, v.length = .ok n → Integer.fits n = true

variable {g : Environment} {fuel : Nat} {p : Program} {s t u : Session} {path : List Nat}
  {names : Names}

theorem BuiltinInt.fits {b : Builtin} {vs : List Value} {n : Int} (h : BuiltinInt g b vs n)
    (htags : InRange (.map g.tags)) (hvs : ∀ v ∈ vs, Sized v) : Integer.fits n = true := by
  cases h with
  | int => exact InRange.int_iff.mp (hvs _ List.mem_cons_self).1
  | numeral _ hfits => exact hfits
  | length hn => exact (hvs _ List.mem_cons_self).2 _ hn
  | line hn => exact htags.tag hn

theorem MethodInt.fits {m : Method} {v : Value} {vs : List Value} {n : Int}
    (h : MethodInt m v vs n) : Integer.fits n = true := by
  cases h with
  | token _ hfits | field _ _ hfits => exact hfits

theorem Gives.inRange {P : Int → Prop} {v : Value} (h : Gives P v)
    (hP : ∀ n, P n → Integer.fits n = true) : InRange v := by
  obtain hfree | ⟨n, rfl, hn⟩ := h
  · exact .free hfree
  · exact InRange.int_iff.mpr (hP n hn)

theorem bounded_range {n : Int} {w : Value} (h : bounded n = .ok w) : InRange w := by
  unfold bounded at h
  split at h
  · rename_i hfits
    cases h
    exact InRange.int_iff.mpr hfits
  · cases h

theorem goesOn_of_ne {op : BinaryOp} (hand : op ≠ .and) (hor : op ≠ .or) (v : Value) :
    op.goesOn v = true := by
  cases op <;> first | rfl | contradiction

mutual

theorem eval_range (hfits : Fits g fuel p s) (e : Expr) {path : List Nat} {names : Names}
    {t u : Session} {v : Value} (harrives : Arrives g fuel p s path t)
    (hplace : p.nodeAt? path = some (names, .expr e)) (ht : t.scopes.Sound)
    (h : eval g e t = (.done v, u)) : InRange v := by
  cases eval_done h with
  | free hfree => exact .free hfree
  | int => exact InRange.int_iff.mpr (hfits.literals _ _ _ _ hplace)
  | @list p es vs _ _ hvs =>
    obtain ⟨hchild, hnode⟩ := harrives.child hplace .items rfl
    exact InRange.list_iff.mpr fun v hv =>
      (evalAll_range hfits es hchild hnode ht hvs v hv).1
  | ident hlookup =>
    obtain hvar | rfl | hfree := lookup_done hlookup
    · exact ht.get? hvar
    · exact hfits.tags
    · exact .free hfree
  | unary he happly =>
    obtain hfree | ⟨a, rfl, rfl, hbounded⟩ := unary_ints happly
    · exact .free hfree
    · exact bounded_range hbounded
  | @binary p op l r v w _ _ t' _ hand hor hl hr happly =>
    obtain ⟨hlchild, hlnode⟩ := harrives.child hplace .left rfl
    obtain ⟨hrchild, hrnode⟩ := harrives.child hplace (.right hl (goesOn_of_ne hand hor v)) rfl
    have hleft := eval_range hfits l hlchild hlnode ht hl
    have hright := eval_range hfits r hrchild hrnode (eval_scopes hl ▸ ht) hr
    obtain hfree | ⟨vs, ws, rfl, rfl, rfl⟩ | ⟨a, b, hop, rfl, rfl, hints⟩ := binary_ints happly
    · exact .free hfree
    · exact InRange.list_iff.mpr (List.forall_mem_append.mpr
        ⟨InRange.list_iff.mp hleft, InRange.list_iff.mp hright⟩)
    · obtain ⟨-, n, -, hn, hok⟩ | ⟨-, fault, hfault⟩ :=
        applyInts_settles (a := a) hop (InRange.int_iff.mp hright)
      · obtain rfl := Except.ok.inj (hints.symm.trans hok)
        exact InRange.int_iff.mpr hn
      · exact nomatch hints.symm.trans hfault
  | @field p e name v _ _ _ he hfield =>
    obtain hfree | ⟨tags, n, rfl, htag, rfl⟩ := Value.field_ints hfield
    · exact .free hfree
    · obtain ⟨hchild, hnode⟩ := harrives.child hplace .holder rfl
      exact InRange.int_iff.mpr ((eval_range hfits e hchild hnode ht he).tag htag)
  | @index p e i v w _ _ t' _ he hi hindex =>
    obtain ⟨hchild, hnode⟩ := harrives.child hplace .indexed rfl
    have hobject := eval_range hfits e hchild hnode ht he
    obtain hfree | ⟨items, k, rfl, rfl, -, hitem⟩ | ⟨tags, name, n, rfl, rfl, htag, rfl⟩ :=
      Value.index_ints hindex
    · exact .free hfree
    · exact InRange.list_iff.mp hobject _ (List.mem_of_getElem? hitem)
    · exact InRange.int_iff.mpr (hobject.tag htag)
  | @call p name es b vs _ _ _ _ hvs hname hcall =>
    obtain ⟨hchild, hnode⟩ := harrives.child hplace .args rfl
    have hargs := evalAll_range hfits es hchild hnode ht hvs
    exact ((callBuiltin_gives b vs).done trivial hcall).inRange fun n hn =>
      hn.fits hfits.tags hargs
  | method he hargs hname hmethod => exact (method_gives hmethod).inRange fun n hn => hn.fits

theorem evalAll_range (hfits : Fits g fuel p s) (es : List Expr) {path : List Nat}
    {names : Names} {t u : Session} {vs : List Value} (harrives : Arrives g fuel p s path t)
    (hplace : p.nodeAt? path = some (names, .exprs es)) (ht : t.scopes.Sound)
    (h : evalAll g es t = (.done vs, u)) : ∀ v ∈ vs, Sized v := by
  cases es with
  | nil =>
    obtain ⟨rfl, -⟩ := done_of_pure h
    exact List.forall_mem_nil _
  | cons e es =>
    obtain ⟨v, t', rest, hv, hrest, rfl⟩ := evalAll_cons_done h
    obtain ⟨hchild, hnode⟩ := harrives.child hplace .first rfl
    obtain ⟨hothers, hothersNode⟩ := harrives.child hplace (.others hv) rfl
    have hsized : Sized v := ⟨eval_range hfits e hchild hnode ht hv,
      fun n hn => hfits.lengths _ _ e _ v _ n hchild hnode hv hn⟩
    exact List.forall_mem_cons.mpr ⟨hsized,
      evalAll_range hfits es hothers hothersNode (eval_scopes hv ▸ ht) hrest⟩

end

theorem Rounds.sound {e : Expr} {body : List Stmt} {left : Nat}
    (h : Rounds (evalCondition g e) (Run.inScope [] (execAll g fuel body)) fuel s left t)
    (hbody : ∀ left t u w,
      Rounds (evalCondition g e) (Run.inScope [] (execAll g fuel body)) fuel s (left + 1) t →
      evalCondition g e t = (.done true, u) → (u.enter []).scopes.Sound →
      execAll g fuel body (u.enter []) = (.done (), w) → w.scopes.Sound)
    (hs : s.scopes.Sound) : t.scopes.Sound := by
  induction h with
  | start => exact hs
  | @next left t u v hround hcond hdone ih =>
    obtain ⟨w, hw, rfl⟩ := done_of_inScope hdone
    have hu : u.scopes.Sound := evalCondition_scopes hcond ▸ ih
    exact (hbody left t u w hround hcond hu.fresh hw).leave

theorem ItemRounds.sound {name : String} {body : List Stmt} {vs rest : List Value}
    (h : ItemRounds (fun w => Run.inScope [(name, w)] (execAll g fuel body)) vs s rest t)
    (hbody : ∀ w rest t u,
      ItemRounds (fun w => Run.inScope [(name, w)] (execAll g fuel body)) vs s (w :: rest) t →
      (t.enter [(name, w)]).scopes.Sound →
      execAll g fuel body (t.enter [(name, w)]) = (.done (), u) → u.scopes.Sound)
    (hvs : ∀ v ∈ vs, InRange v) (hs : s.scopes.Sound) :
    (∀ v ∈ rest, InRange v) ∧ t.scopes.Sound := by
  induction h with
  | start => exact ⟨hvs, hs⟩
  | @next w rest t u hround hdone ih =>
    obtain ⟨hw, hrest⟩ := List.forall_mem_cons.mp ih.1
    obtain ⟨x, hx, rfl⟩ := done_of_inScope hdone
    have ht : Scopes.Sound ([(name, w)] :: t.scopes) :=
      ih.2.enter (List.forall_mem_singleton.mpr hw)
    exact ⟨hrest, (hbody w rest t x hround ht hx).leave⟩

theorem elements_range {v : Value} {vs : List Value} (hv : InRange v) (h : v.elements = .ok vs) :
    ∀ w ∈ vs, InRange w := by
  intro w hw
  obtain hfree | ⟨items, rfl, hitem⟩ := Value.elements_ints h hw
  · exact .free hfree
  · exact InRange.list_iff.mp hv w hitem

mutual

theorem exec_range (hfits : Fits g fuel p s) (st : Stmt) {path : List Nat} {names : Names}
    {t u : Session} (harrives : Arrives g fuel p s path t)
    (hplace : p.nodeAt? path = some (names, .stmt st)) (ht : t.scopes.Sound)
    (h : exec g fuel st t = (.done (), u)) : u.scopes.Sound := by
  cases st with
  | declare line name value =>
    obtain ⟨v, t', hv, h⟩ := done_of_bind h
    obtain ⟨hchild, hnode⟩ := harrives.child hplace .declared rfl
    have hrange := eval_range hfits value hchild hnode ht hv
    obtain rfl := (Prod.mk.inj h).2
    exact (eval_scopes hv ▸ ht).declare hrange name
  | assign line name value =>
    obtain ⟨v, t', hv, h⟩ := done_of_bind h
    obtain ⟨hchild, hnode⟩ := harrives.child hplace .assigned rfl
    have hrange := eval_range hfits value hchild hnode ht hv
    rw [assign_apply] at h
    cases hassign : t'.scopes.assign name v with
    | none =>
      rw [hassign] at h
      exact nomatch (Prod.mk.inj h).1
    | some changed =>
      rw [hassign] at h
      obtain rfl := (Prod.mk.inj h).2
      exact Scopes.Sound.assign (eval_scopes hv ▸ ht) hrange hassign
  | evaluate line e =>
    obtain ⟨v, t', hv, h⟩ := done_of_bind h
    obtain ⟨-, rfl⟩ := done_of_pure h
    exact eval_scopes hv ▸ ht
  | branch line cond body other =>
    obtain ⟨b, t', hb, h⟩ := done_of_bind h
    have ht' : t'.scopes.Sound := evalCondition_scopes hb ▸ ht
    cases b with
    | true =>
      obtain ⟨w, hw, rfl⟩ := done_of_inScope h
      obtain ⟨hchild, hnode⟩ := harrives.child hplace (.body hb) rfl
      exact (execAll_range hfits body hchild hnode ht'.fresh hw).leave
    | false =>
      cases other with
      | none =>
        obtain ⟨-, rfl⟩ := done_of_pure h
        exact ht'
      | some st =>
        obtain ⟨hchild, hnode⟩ := harrives.child hplace (.other hb) rfl
        exact exec_range hfits st hchild hnode ht' h
  | loop line cond body =>
    obtain ⟨left, t', hrounds, hcond⟩ := whileTrue_ends h
    have ht' := hrounds.sound (fun left t u w hround hb hu hw => by
      obtain ⟨hchild, hnode⟩ := harrives.child hplace (.loopBody hround hb) rfl
      exact execAll_range hfits body hchild hnode hu hw) ht
    exact evalCondition_scopes hcond ▸ ht'
  | each line name items body =>
    obtain ⟨v, t', hv, h⟩ := done_of_bind h
    obtain ⟨vs, t'', hvs, hloop⟩ := done_of_bind h
    obtain ⟨helements, rfl⟩ := done_of_onLine hvs
    obtain ⟨hchild, hnode⟩ := harrives.child hplace .eachItems rfl
    have hrange := elements_range (eval_range hfits items hchild hnode ht hv) helements
    refine ((forEach_ends hloop).sound (fun w rest t u hround hu hw => ?_) hrange
      (eval_scopes hv ▸ ht)).2
    obtain ⟨hchild, hnode⟩ := harrives.child hplace (.eachBody hv helements hround) rfl
    exact execAll_range hfits body hchild hnode hu hw
  | block line body =>
    obtain ⟨w, hw, rfl⟩ := done_of_inScope h
    obtain ⟨hchild, hnode⟩ := harrives.child hplace .block rfl
    exact (execAll_range hfits body hchild hnode ht.fresh hw).leave
  | checkpoint line name body =>
    obtain ⟨w, hw, hscopes⟩ := done_of_checkpoint h
    obtain ⟨x, hx, rfl⟩ := done_of_inScope hw
    obtain ⟨hchild, hnode⟩ := harrives.child hplace .checkpoint rfl
    rw [hscopes]
    exact (execAll_range hfits body hchild hnode ht.fresh hx).leave

theorem execAll_range (hfits : Fits g fuel p s) (ss : List Stmt) {path : List Nat} {names : Names}
    {t u : Session} (harrives : Arrives g fuel p s path t)
    (hplace : p.nodeAt? path = some (names, .stmts ss)) (ht : t.scopes.Sound)
    (h : execAll g fuel ss t = (.done (), u)) : u.scopes.Sound := by
  cases ss with
  | nil =>
    obtain ⟨-, rfl⟩ := done_of_pure h
    exact ht
  | cons st ss =>
    obtain ⟨⟨⟩, t', hst, h⟩ := done_of_bind h
    obtain ⟨hchild, hnode⟩ := harrives.child hplace .head rfl
    obtain ⟨hrest, hrestNode⟩ := harrives.child hplace (.tail hst) rfl
    exact execAll_range hfits ss hrest hrestNode
      (exec_range hfits st hchild hnode ht hst) h

end

/-- Where a loop that a run comes to starts a round, the variables are in range. -/
theorem Arrives.rounds_sound (harrives : Arrives g fuel p s path t) (hfits : Fits g fuel p s)
    {line left : Nat} {e : Expr} {body : List Stmt}
    (hplace : p.nodeAt? path = some (names, .stmt (.loop line e body))) (ht : t.scopes.Sound)
    (h : Rounds (evalCondition g e) (Run.inScope [] (execAll g fuel body)) fuel t left u) :
    u.scopes.Sound :=
  h.sound (fun _ _ _ _ hround hb hu hw => by
    obtain ⟨hchild, hnode⟩ := harrives.child hplace (.loopBody hround hb) rfl
    exact execAll_range hfits body hchild hnode hu hw) ht

/-- What a node with variables in range starts has such variables too. -/
theorem Starts.sound (hfits : Fits g fuel p s) {node : Node} {i : Nat}
    (h : Starts g fuel node t i u) (harrives : Arrives g fuel p s path t)
    (hplace : p.nodeAt? path = some (names, node)) (ht : t.scopes.Sound) : u.scopes.Sound := by
  cases h with
  | items | operand | left | holder | indexed | args | object | first | declared | assigned
  | evaluated | cond | eachItems | head => exact ht
  | right he _ | index he | methodArgs he | others he => exact eval_scopes he ▸ ht
  | body he => exact Scopes.Sound.fresh (evalCondition_scopes he ▸ ht)
  | other he => exact evalCondition_scopes he ▸ ht
  | block | checkpoint => exact ht.fresh
  | loopCond hrounds => exact harrives.rounds_sound hfits hplace ht hrounds
  | loopBody hrounds he =>
    have hround := harrives.rounds_sound hfits hplace ht hrounds
    exact Scopes.Sound.fresh (evalCondition_scopes he ▸ hround)
  | @eachBody _ name e body _ w _ _ _ _ _ he hv hrounds =>
    obtain ⟨hitems, hitemsNode⟩ := harrives.child hplace .eachItems rfl
    have hrange := elements_range (eval_range hfits e hitems hitemsNode ht he) hv
    obtain ⟨hrest, hu⟩ := hrounds.sound (fun w rest t u hround hu hw => by
      obtain ⟨hchild, hnode⟩ := harrives.child hplace (.eachBody he hv hround) rfl
      exact execAll_range hfits body hchild hnode hu hw) hrange (eval_scopes he ▸ ht)
    exact hu.enter (List.forall_mem_singleton.mpr (hrest w List.mem_cons_self))
  | tail hst =>
    obtain ⟨hchild, hnode⟩ := harrives.child hplace .head rfl
    exact exec_range hfits _ hchild hnode ht hst

/-- Wherever a run comes to, the integers in its variables are in range. -/
theorem Arrives.sound (h : Arrives g fuel p s path t) (hfits : Fits g fuel p s)
    (hs : s.scopes.Sound) : t.scopes.Sound := by
  induction h with
  | start => exact hs.fresh
  | into h hplace hstarts ih => exact hstarts.sound hfits h hplace ih

/-! ## Operators -/

/-- An expression on `line` comes to its exact result, or it fails there, and the run with it:
the one if its operands are not refused, the other if they are. -/
def Operates (g : Environment) (fuel : Nat) (p : Program) (s : Session) (e : Expr) (t u : Session)
    (line : Nat) (refused : Prop) (exact : Int → Prop) : Prop :=
  (¬refused ∧ ∃ n, exact n ∧ eval g e t = (.done (.int n), u)) ∨
    (refused ∧ ∃ fault checkpoints, eval g e t = (.failed (.script line fault []), u) ∧
      (run g fuel p s).1 = .failed (.script line fault checkpoints))

/-- A failed expression on `line` fails the run. -/
theorem Arrives.failed (h : Arrives g fuel p s path t) {e : Expr}
    (hplace : p.nodeAt? path = some (names, .expr e)) {line : Nat} {fault : Fault}
    (he : eval g e t = (.failed (.script line fault []), u)) :
    ∃ fault checkpoints, eval g e t = (.failed (.script line fault []), u) ∧
      (run g fuel p s).1 = .failed (.script line fault checkpoints) := by
  obtain ⟨left, hrun⟩ := h.fails hplace (bind_failed he _)
  exact ⟨fault, left, he, hrun⟩

theorem unary_operates (h : Arrives g fuel p s path t) {pos : Position} {operand : Expr} {a : Int}
    (hplace : p.nodeAt? path = some (names, .expr (.unary pos .negate operand)))
    (he : eval g operand t = (.done (.int a), u)) :
    Operates g fuel p s (.unary pos .negate operand) t u pos.line
      (Integer.fits (-a) = false) (· = -a) := by
  have heval : eval g (.unary pos .negate operand) t =
      Run.onLine pos.line (bounded (-a)) u := bind_done he _
  unfold bounded at heval
  by_cases hfits : Integer.fits (-a) = true
  · rw [if_pos hfits] at heval
    exact .inl ⟨Bool.eq_false_iff.not_left.mpr hfits, -a, rfl, heval⟩
  · rw [if_neg hfits] at heval
    exact .inr ⟨Bool.eq_false_iff.mpr hfits, h.failed hplace heval⟩

theorem ne_logical {op : BinaryOp} (hop : op.isArithmetic = true) : op ≠ .and ∧ op ≠ .or := by
  cases op <;> first | exact ⟨by decide, by decide⟩ | exact nomatch hop

theorem binary_operates (h : Arrives g fuel p s path t) {pos : Position} {op : BinaryOp}
    {l r : Expr} {a b : Int} {w : Session} (hop : op.isArithmetic = true)
    (hplace : p.nodeAt? path = some (names, .expr (.binary pos op l r)))
    (hl : eval g l t = (.done (.int a), u)) (hr : eval g r u = (.done (.int b), w))
    (hb : Integer.fits b = true) :
    Operates g fuel p s (.binary pos op l r) t w pos.line (Refused op a b) (Exact op a b) := by
  obtain ⟨hand, hor⟩ := ne_logical hop
  have heval : eval g (.binary pos op l r) t = Run.onLine pos.line (op.applyInts a b) w := by
    rw [eval_binary g pos hand hor, bind_done hl, bind_done hr, apply_ints]
  obtain ⟨hrefused, n, hn, -, hok⟩ | ⟨hrefused, fault, herror⟩ :=
    applyInts_settles (a := a) hop hb
  · rw [hok] at heval
    exact .inl ⟨hrefused, n, hn, heval⟩
  · rw [herror] at heval
    exact .inr ⟨hrefused, h.failed hplace heval⟩

/-! ## Exact integers in all runs -/

/-- The lines of a text in memory are numbered by integers of scripts. -/
theorem tags_range {source : String} {tags : LineTags} (h : LineTags.ofText source = .ok tags)
    (hsource : (source.length : Int) ≤ Integer.greatest) : InRange (.map tags) := by
  intro n hn
  obtain ⟨⟨tag, line⟩, hentry, rfl⟩ := List.mem_map.mp hn
  obtain ⟨i, _, rfl, hline, -⟩ := ((LineTags.ofText_ok h).2 tag line).mp hentry
  have hshort := Text.lineChars_length_le source.toList
  have hindex := (List.getElem?_eq_some_iff.mp hline).1
  rw [String.length_toList] at hshort
  rw [Integer.fits_iff, Integer.least]
  constructor <;> omega

/-- No integer of a run wraps around.  Let a script be read from a text, and let it run with the
line tags of a source, from a session without variables.  As long as the source and the values of
the run are no longer than memory allows, wherever the run comes to:

* every literal stands in the text, in range, with the value of its digits;
* the integers in variables and in values of expressions are in range;
* an expression that comes to an integer comes to the exact one of its form;
* minus and the arithmetic operators on integers come to their exact result, or the run fails on
  their line, which happens exactly if their operands are refused. -/
theorem integers_exact {text : String} {p : Program} (hparse : parse (tokenize text).1 = (p, []))
    {source : String} {g : Environment} (htags : LineTags.ofText source = .ok g.tags)
    (hsource : (source.length : Int) ≤ Integer.greatest) (fuel : Nat) {s : Session}
    (hs : s.scopes = [])
    (hmemory : ∀ path names e t v u n, Arrives g fuel p s path t →
      p.nodeAt? path = some (names, .expr e) → eval g e t = (.done v, u) → v.length = .ok n →
      (n : Int) ≤ Integer.greatest) :
    (∀ path names pos n, p.nodeAt? path = some (names, .expr (.int pos n)) →
      Integer.fits n = true ∧ ∃ before digits after, Literal text.toList n before digits after) ∧
    ∀ path t, Arrives g fuel p s path t →
      t.scopes.Sound ∧
      ∀ names e, p.nodeAt? path = some (names, .expr e) →
        (∀ v u, eval g e t = (.done v, u) → InRange v) ∧
        (∀ n u, eval g e t = (.done (.int n), u) → IntSource g e t n) ∧
        (∀ pos operand a u, e = .unary pos .negate operand →
          eval g operand t = (.done (.int a), u) →
          Operates g fuel p s e t u pos.line (Integer.fits (-a) = false) (· = -a)) ∧
        ∀ pos op l r a b u w, e = .binary pos op l r → op.isArithmetic = true →
          eval g l t = (.done (.int a), u) → eval g r u = (.done (.int b), w) →
          Operates g fuel p s e t w pos.line (Refused op a b) (Exact op a b) := by
  have hliterals : ∀ path names pos n, p.nodeAt? path = some (names, .expr (.int pos n)) →
      Integer.fits n = true ∧
        ∃ before digits after, Literal text.toList n before digits after := by
    intro path names pos n hnode
    obtain ⟨tokens, htokens, hkinds⟩ := tokensFrom_finish .start text.toList
    rw [tokenize, htokens] at hparse
    exact formed_of_parse (P := fun n => Integer.fits n = true ∧
      ∃ before digits after, Literal text.toList n before digits after) hkinds rfl hparse
      (fun t ht n hkind => literal_of_token (by
        rw [tokenize, htokens]
        exact List.mem_append_left _ ht) hkind) hnode
  have hfits : Fits g fuel p s :=
    { literals := fun path names pos n hnode => (hliterals path names pos n hnode).1
      tags := tags_range htags hsource
      lengths := fun path names e t v u n h hnode hv hn => Integer.fits_iff.mpr
        ⟨Int.le_trans (by decide) (Int.natCast_nonneg n),
          hmemory path names e t v u n h hnode hv hn⟩ }
  refine ⟨hliterals, fun path t harrives => ?_⟩
  have ht := harrives.sound hfits (by rw [hs]; exact List.forall_mem_nil _)
  refine ⟨ht, fun names e hplace => ⟨?_, fun n u hn => eval_int hn, ?_, ?_⟩⟩
  · exact fun v u hv => eval_range hfits e harrives hplace ht hv
  · rintro pos operand a u rfl ha
    exact unary_operates harrives hplace ha
  · rintro pos op l r a b u w rfl hop ha hb
    obtain ⟨hand, hor⟩ := ne_logical hop
    obtain ⟨hchild, hnode⟩ := harrives.child hplace (.right ha (goesOn_of_ne hand hor _)) rfl
    have hright := eval_range hfits r hchild hnode (eval_scopes ha ▸ ht) hb
    exact binary_operates harrives hop hplace ha hb (InRange.int_iff.mp hright)

/-- A script that takes the remainder of a length by a negative number. -/
def counted : String := "len(\"abc\") % -2;\n"

namespace Counted

def length : Expr := .call ⟨1, 1⟩ "len" [.str ⟨1, 5⟩ "abc"]

def two : Expr := .unary ⟨1, 14⟩ .negate (.int ⟨1, 15⟩ 2)

def remainder : Expr := .binary ⟨1, 12⟩ .rem length two

def program : Program := ⟨[.evaluate 1 remainder]⟩

def environment : Environment := { quiet with tags := ⟨[("T", 1)]⟩ }

theorem parse_counted : parse (tokenize counted).1 = (program, []) := by
  have hwords : (tokenize counted).1 = [⟨.ident "len", ⟨1, 1⟩⟩, ⟨.leftParen, ⟨1, 4⟩⟩,
      ⟨.str "abc", ⟨1, 5⟩⟩, ⟨.rightParen, ⟨1, 10⟩⟩, ⟨.percent, ⟨1, 12⟩⟩, ⟨.minus, ⟨1, 14⟩⟩,
      ⟨.int 2, ⟨1, 15⟩⟩, ⟨.semicolon, ⟨1, 16⟩⟩, ⟨.finish, ⟨2, 1⟩⟩] := by decide +kernel
  rw [hwords]
  with_unfolding_all rfl

/-- A node whose expression, if it is one, comes to no value that is too long. -/
def Short (node : Node) : Prop :=
  ∀ e, node = .expr e → ∀ t v u n, eval environment e t = (.done v, u) → v.length = .ok n →
    (n : Int) ≤ Integer.greatest

theorem short_other {node : Node} (h : ∀ e, node ≠ .expr e) : Short node :=
  fun e he => absurd he (h e)

theorem short_value {e : Expr} {v : Value} (he : ∀ t, eval environment e t = (.done v, t))
    (hv : ∀ n, v.length = .ok n → (n : Int) ≤ Integer.greatest) : Short (.expr e) := by
  intro e' heq t w u n hw hn
  obtain rfl := Node.expr.inj heq
  obtain ⟨hw, -⟩ := Prod.mk.inj ((he t).symm.trans hw)
  exact hv n (by rw [Outcome.done.inj hw, hn])

theorem short_number {e : Expr} {n : Int} (he : ∀ t, eval environment e t = (.done (.int n), t)) :
    Short (.expr e) := by
  refine short_value he fun m hm => ?_
  cases hm

theorem short_text {e : Expr} (he : ∀ t, eval environment e t = (.done (.str "abc"), t)) :
    Short (.expr e) := by
  refine short_value he fun n hn => ?_
  obtain rfl : 3 = n := Except.ok.inj hn
  decide

theorem everywhere_short : (Node.stmts program.stmts).Everywhere Short [[]] := by
  have leaf {names : Names} {e : Expr} (hchildren : (Node.expr e).children names = [])
      (h : Short (.expr e)) : (Node.expr e).Everywhere Short names :=
    .mk h (by rw [hchildren]; exact List.forall_mem_nil _)
  have nothing {names : Names} : (Node.exprs []).Everywhere Short names :=
    .mk (short_other (by simp)) (List.forall_mem_nil _)
  have harguments : (Node.exprs [.str ⟨1, 5⟩ "abc"]).Everywhere Short [[]] :=
    .mk (short_other (by simp)) (List.forall_mem_cons.mpr
      ⟨leaf rfl (short_text fun _ => rfl), List.forall_mem_singleton.mpr nothing⟩)
  have hlength : (Node.expr length).Everywhere Short [[]] :=
    .mk (short_number fun _ => rfl) (List.forall_mem_singleton.mpr harguments)
  have htwo : (Node.expr two).Everywhere Short [[]] :=
    .mk (short_number fun _ => rfl)
      (List.forall_mem_singleton.mpr (leaf rfl (short_number fun _ => rfl)))
  have hremainder : (Node.expr remainder).Everywhere Short [[]] :=
    .mk (short_number fun _ => rfl)
      (List.forall_mem_cons.mpr ⟨hlength, List.forall_mem_singleton.mpr htwo⟩)
  refine .mk (short_other (by simp)) (List.forall_mem_cons.mpr
    ⟨.mk (short_other (by simp)) (List.forall_mem_singleton.mpr hremainder),
      List.forall_mem_singleton.mpr ?_⟩)
  exact .mk (short_other (by simp)) (List.forall_mem_nil _)

end Counted

open Counted in
theorem integers_exact_counted :
    ∃ tags p e t u, LineTags.ofText "go(); // @T@\n" = .ok tags ∧
      parse (tokenize counted).1 = (p, []) ∧
      Arrives { quiet with tags := tags } 0 p silent [0, 0] t ∧
      p.nodeAt? [0, 0] = some ([[]], .expr e) ∧
      eval { quiet with tags := tags } e t = (.done (.int 1), u) ∧
      ¬Refused .rem 3 (-2) ∧ Exact .rem 3 (-2) 1 := by
  have htags : LineTags.ofText "go(); // @T@\n" = .ok environment.tags := by decide +kernel
  have hexact := integers_exact parse_counted htags (by decide) 0 (s := silent) rfl
    (fun path names e t v u n _ hplace => everywhere_short path _ hplace e rfl t v u n)
  have harrives : Arrives environment 0 program silent [0, 0] (silent.enter []) :=
    .into (.into .start rfl .head) rfl .evaluated
  obtain ⟨-, -, -, hbinary⟩ := (hexact.2 _ _ harrives).2 [[]] remainder rfl
  have heval :
      eval environment remainder (silent.enter []) = (.done (.int 1), silent.enter []) := rfl
  obtain ⟨hrefused, n, hn, hdone⟩ | ⟨-, fault, checkpoints, hfailed, -⟩ :=
    hbinary ⟨1, 12⟩ .rem length two 3 (-2) (silent.enter []) (silent.enter []) rfl rfl rfl rfl
  · obtain rfl : n = 1 := Value.int.inj (Outcome.done.inj (Prod.mk.inj (hdone.symm.trans heval)).1)
    exact ⟨environment.tags, program, remainder, _, _, htags, parse_counted, harrives, rfl, heval,
      hrefused, hn⟩
  · have hclash := (Prod.mk.inj (hfailed.symm.trans heval)).1
    cases hclash

end Script
end CheckScript
