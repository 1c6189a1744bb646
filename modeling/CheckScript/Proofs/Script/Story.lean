/-
The story of a step.

A `Story` of a step says what it does from each session on, with the proof that this leads to
where the step leads, that each effect fits where it happens, and that the effects may happen one
after another.  There is one rule for each way in which the interpreter puts steps together; so
every statement has a story, which follows its tree (`Story.exec`).
-/
import CheckScript.Proofs.Script.Effect

namespace CheckScript
namespace Script

variable {α β : Type}

/-! ## What single steps come to -/

/-- A step that does nothing, though it may fail. -/
def Still (m : Run α) : Prop :=
  ∀ s, (∃ a, m s = (.done a, s)) ∨
    ∃ f, m s = (.failed f, s) ∧ f.ofWait = false ∧ f.checkpoints = []

theorem still_fail {f : Failure} (hwait : f.ofWait = false) (hnew : f.checkpoints = []) :
    Still (Run.fail f : Run α) := fun _ => .inr ⟨f, rfl, hwait, hnew⟩

theorem still_plain : Run.Plain (fun _ => True) fun {_} m => Still m where
  pure a := fun _ => .inl ⟨a, rfl⟩
  bind {_ _ m k} hm hk := by
    intro s
    rw [Run.bind_apply]
    rcases hm s with ⟨b, hb⟩ | ⟨f, hf, hfails⟩
    · rw [hb]
      exact hk b s
    · rw [hf]
      exact .inr ⟨f, rfl, hfails⟩
  fault _ _ := still_fail rfl rfl
  assertion _ _ := still_fail rfl rfl
  scopes := fun s => .inl ⟨s.scopes, rfl⟩

theorem not_unfinished_ofExcept {r : Except Failure α} {why : Interruption} :
    Run.ofExcept r ≠ .unfinished why := by
  cases r <;> exact nofun

theorem buildDelta_ends {g : Environment} {why : Interruption} (source target : String)
    (s : Session) : (Run.buildDelta g source target s).1 ≠ .unfinished why := by
  unfold Run.buildDelta
  split
  · exact nofun
  · exact not_unfinished_ofExcept

theorem send_of_closed {text : String} {s : Session} (h : s.connection.closed = true) :
    Run.send text s = (.failed .inputClosed, s) := by
  rw [Run.send, Connection.send_of_closed h]
  rfl

/-- A wait finds its line, fails, or has no deadline. -/
theorem expect_cases (line : Nat) (wanted : String) (timeout : Duration) (s : Session) :
    let r := s.connection.await wanted timeout
    s.connection.hasDeadline timeout = true ∧ (s.connection.expect wanted timeout).2 = r.2 ∧
        ((∃ found, r.1 = .ok found ∧
          Run.expect line wanted timeout s = (.done found, { s with connection := r.2 })) ∨
        ∃ f, r.1 = .error f ∧ Run.expect line wanted timeout s =
          (.failed f, { s with connection := r.2.note s!"line {line}: {f.message}" })) ∨
      s.connection.hasDeadline timeout = false ∧
        Run.expect line wanted timeout s = (.unfinished .breakdown, s) := by
  intro r
  unfold Run.expect
  cases htime : s.connection.hasDeadline timeout with
  | false =>
    rw [Connection.expect_of_not_deadline htime]
    exact .inr ⟨rfl, rfl⟩
  | true =>
    rw [Connection.expect_of_deadline htime]
    refine .inl ⟨rfl, rfl, ?_⟩
    cases (s.connection.await wanted timeout).1 with
    | ok found => exact .inl ⟨found, rfl, rfl⟩
    | error f => exact .inr ⟨f, rfl, rfl⟩

theorem assign_apply (line : Nat) (name : String) (v : Value) (s : Session) :
    assign line name v s = match s.scopes.assign name v with
      | some changed => (.done (), { s with scopes := changed })
      | none => (.failed (.script line (.assignedUndeclared name) []), s) := by
  show (match s.scopes.assign name v with
    | some changed => Run.setScopes changed
    | none => Run.onLine line (.error (.assignedUndeclared name))) s = _
  cases s.scopes.assign name v <;> rfl

theorem checkpoint_apply (g : Environment) (name : String) (body : Run Unit) (s : Session) :
    Run.checkpoint name body s = match body ((Effect.entered name).apply g s) with
      | (.done _, t) => (.done (), (Effect.passed name).apply g t)
      | (.failed f, t) => (.failed (f.inCheckpoint name), (Effect.failed name f).apply g t)
      | (.unfinished why, t) => (.unfinished why, t) := rfl

/-! ## Stories -/

/-- What a step does, from each session on. -/
structure Story (g : Environment) (m : Run α) where
  effects : Session → List Effect
  replays : ∀ s, replay g (effects s) s = (m s).2
  fits : ∀ s, AllFit g (effects s) s
  ends : ∀ s frames, Course ⟨frames, none⟩ (effects s) ⟨frames, (m s).1.exit?⟩

/-- A failure begins, or else there are these effects. -/
def Outcome.raisedOr (effects : List Effect) : Outcome α → List Effect
  | .failed f => [.raised f]
  | _ => effects

theorem allFit_raisedOr {g : Environment} {effects : List Effect} {s : Session} (o : Outcome α)
    (h : AllFit g effects s) : AllFit g (o.raisedOr effects) s := by
  cases o with
  | failed f => exact ⟨trivial, trivial⟩
  | done | unfinished => exact h

namespace Story

variable {g : Environment}

/-- What a step writes on the side of the script is what its effects write. -/
theorem own {m : Run α} (story : Story g m) (s : Session) :
    (m s).2.connection.transcript.own =
      s.connection.transcript.own ++ report g (story.effects s) s := by
  rw [← story.replays, own_replay g (story.fits s)]

/-! ## Single steps -/

def still (m : Run α) (h : Still m) : Story g m where
  effects s := (m s).1.raisedOr []
  replays s := by rcases h s with ⟨a, ha⟩ | ⟨f, hf, -⟩ <;> simp only [*] <;> rfl
  fits s := allFit_raisedOr _ trivial
  ends s frames := by
    rcases h s with ⟨a, ha⟩ | ⟨f, hf, hwait, hnew⟩
    · rw [ha]
      exact .nil _
    · rw [hf]
      exact .single (.out ⟨rfl, hwait⟩ hnew)

def pure (a : α) : Story g (Pure.pure a : Run α) := .still _ (still_plain.pure a)

def onLine (line : Nat) (r : Except Fault α) : Story g (Run.onLine line r) :=
  .still _ (still_plain.onLine trivial r)

def cutOff : Story g (Run.cutOff : Run α) where
  effects _ := [.cutOff]
  replays _ := rfl
  fits _ := ⟨trivial, trivial⟩
  ends _ _ := .single (.out rfl rfl)

def note (text : String) : Story g (Run.note text) where
  effects _ := [.logged text]
  replays _ := rfl
  fits _ := ⟨trivial, trivial⟩
  ends _ _ := .single (.act rfl)

/-- A text that is refused because the input has been closed is not written.  One that the system
refuses has been announced before. -/
def send (text : String) : Story g (Run.send text) where
  effects s :=
    if s.connection.closed then [.raised .inputClosed]
    else .sent text :: (Run.send text s).1.raisedOr []
  replays s := by
    split
    · rename_i hclosed
      rw [send_of_closed hclosed]
      rfl
    · cases (Run.send text s).1 <;> rfl
  fits s := by
    split
    · exact ⟨trivial, trivial⟩
    · rename_i hopen
      exact ⟨Bool.eq_false_iff.mpr hopen, allFit_raisedOr _ trivial⟩
  ends s frames := by
    split
    · rename_i hclosed
      rw [send_of_closed hclosed]
      exact .single (.out ⟨rfl, rfl⟩ rfl)
    · rename_i hopen
      match h : Run.send text s with
      | (.done _, _) => exact .single (.act rfl)
      | (.failed f, _) =>
        rcases Connection.send_refused (send_failed h).1 with ⟨hclosed, -⟩ | ⟨-, fault, rfl, -⟩
        · exact absurd hclosed hopen
        · exact .cons (.act rfl) (.single (.out ⟨rfl, rfl⟩ rfl))
      | (.unfinished _, _) => exact absurd (congrArg Prod.fst h) not_unfinished_ofExcept

def expect (line : Nat) (wanted : String) (timeout : Duration) :
    Story g (Run.expect line wanted timeout) where
  effects s :=
    match (Run.expect line wanted timeout s).1 with
    | .done _ => [.awaited wanted timeout]
    | .failed f => [.missed line wanted timeout f]
    | .unfinished _ => [.stuck wanted timeout]
  replays s := by
    rcases expect_cases line wanted timeout s with
      ⟨-, hleft, ⟨r, -, h⟩ | ⟨f, -, h⟩⟩ | ⟨-, h⟩ <;> rw [h]
    · exact congrArg (fun c => { s with connection := c }) hleft
    · exact congrArg (fun c => { s with connection := c.note s!"line {line}: {f.message}" }) hleft
    · rfl
  fits s := by
    rcases expect_cases line wanted timeout s with
      ⟨htime, -, ⟨r, hr, h⟩ | ⟨f, hf, h⟩⟩ | ⟨htime, h⟩ <;> rw [h]
    · exact ⟨⟨htime, r, hr⟩, trivial⟩
    · exact ⟨⟨htime, hf⟩, trivial⟩
    · exact ⟨htime, trivial⟩
  ends s frames := by
    match h : Run.expect line wanted timeout s with
    | (.done _, _) => exact .single (.act rfl)
    | (.failed f, _) =>
      have hnew := Failure.checkpoints_of_outside (expect_blames_none h)
      exact .single (.out ⟨rfl, expect_waited h⟩ hnew)
    | (.unfinished why, _) =>
      have hwhy : why = .breakdown := by
        rcases expect_cases line wanted timeout s with
          ⟨-, -, ⟨r, -, h'⟩ | ⟨f, -, h'⟩⟩ | ⟨-, h'⟩
        · exact nomatch congrArg Prod.fst (h.symm.trans h')
        · exact nomatch congrArg Prod.fst (h.symm.trans h')
        · exact Outcome.unfinished.inj (congrArg Prod.fst (h.symm.trans h'))
      exact .single (.out (congrArg Exit.interruption hwhy) rfl)

/-- A build that fails may have changed files before. -/
def buildDelta (source target : String) : Story g (Run.buildDelta g source target) where
  effects s := .generated source target :: (Run.buildDelta g source target s).1.raisedOr []
  replays s := by cases (Run.buildDelta g source target s).1 <;> rfl
  fits s := ⟨trivial, allFit_raisedOr _ trivial⟩
  ends s frames := by
    match h : Run.buildDelta g source target s with
    | (.done _, _) => exact .single (.act rfl)
    | (.failed f, _) =>
      obtain ⟨hwait, houtside⟩ := buildDelta_outside h
      have hnew := Failure.checkpoints_of_outside houtside
      exact .cons (.act rfl) (.single (.out ⟨rfl, hwait⟩ hnew))
    | (.unfinished why, _) => exact absurd (congrArg Prod.fst h) (buildDelta_ends source target s)

def declare (name : String) (v : Value) : Story g (Script.declare name v) where
  effects _ := [.declared name v]
  replays _ := rfl
  fits _ := ⟨trivial, trivial⟩
  ends _ _ := .single (.act rfl)

/-- A variable that is not there is not assigned. -/
def assign (line : Nat) (name : String) (v : Value) : Story g (Script.assign line name v) where
  effects s := (Script.assign line name v s).1.raisedOr [.assigned name v]
  replays s := by
    rw [assign_apply]
    match h : s.scopes.assign name v with
    | some changed => exact congrArg (fun r => { s with scopes := r.getD s.scopes }) h
    | none => rfl
  fits s := by
    rw [assign_apply]
    match h : s.scopes.assign name v with
    | some changed => exact ⟨Option.isSome_of_eq_some h, trivial⟩
    | none => exact ⟨trivial, trivial⟩
  ends s frames := by
    rw [assign_apply]
    match s.scopes.assign name v with
    | some _ => exact .single (.act rfl)
    | none => exact .single (.out ⟨rfl, rfl⟩ rfl)

/-! ## Steps that are put together -/

def bind {m : Run β} {k : β → Run α} (first : Story g m) (next : ∀ b, Story g (k b)) :
    Story g (m >>= k) where
  effects s :=
    first.effects s ++
      match m s with
      | (.done b, t) => (next b).effects t
      | _ => []
  replays s := by
    rw [replay_append, first.replays, Run.bind_apply]
    match m s with
    | (.done b, t) => exact (next b).replays t
    | (.failed _, _) | (.unfinished _, _) => rfl
  fits s := by
    rw [allFit_append, first.replays]
    refine ⟨first.fits s, ?_⟩
    match m s with
    | (.done b, t) => exact (next b).fits t
    | (.failed _, _) | (.unfinished _, _) => trivial
  ends s frames := by
    have hfirst := first.ends s frames
    rw [Run.bind_apply]
    match m s, hfirst with
    | (.done b, t), hfirst => exact hfirst.append ((next b).ends t frames)
    | (.failed _, _), hfirst | (.unfinished _, _), hfirst => exact hfirst.append (.nil _)

def inScope (scope : Scope) {body : Run Unit} (inner : Story g body) :
    Story g (Run.inScope scope body) where
  effects s := .opened scope :: (inner.effects { s with scopes := scope :: s.scopes } ++ [.closed])
  replays s := by
    show replay g (inner.effects _ ++ [.closed]) { s with scopes := scope :: s.scopes } = _
    rw [replay_append, inner.replays]
    rfl
  fits s := by
    refine ⟨trivial, ?_⟩
    rw [allFit_append]
    exact ⟨inner.fits _, trivial, trivial⟩
  ends s frames := by
    have hinner := inner.ends { s with scopes := scope :: s.scopes } (.block :: frames)
    exact .cons (.opened scope) (hinner.append (.single (.closed _)))

/-- The effect by which a checkpoint is left. -/
def leave (name : String) : Outcome Unit → Effect
  | .done _ => .passed name
  | .failed f => .failed name f
  | .unfinished _ => .abandoned name

def checkpoint (name : String) {body : Run Unit} (inner : Story g body) :
    Story g (Run.checkpoint name body) where
  effects s :=
    .entered name :: (inner.effects ((Effect.entered name).apply g s) ++
      [leave name (body ((Effect.entered name).apply g s)).1])
  replays s := by
    show replay g (inner.effects _ ++ _) ((Effect.entered name).apply g s) = _
    rw [replay_append, inner.replays, checkpoint_apply g]
    match body ((Effect.entered name).apply g s) with
    | (.done _, _) | (.failed _, _) | (.unfinished _, _) => rfl
  fits s := by
    refine ⟨trivial, ?_⟩
    rw [allFit_append]
    refine ⟨inner.fits _, ?_⟩
    match (body ((Effect.entered name).apply g s)).1 with
    | .done _ | .failed _ | .unfinished _ => exact ⟨trivial, trivial⟩
  ends s frames := by
    have hinner := inner.ends ((Effect.entered name).apply g s) (.checkpoint name :: frames)
    rw [checkpoint_apply g]
    match body ((Effect.entered name).apply g s), hinner with
    | (.done _, _), hinner => exact .cons (.entered name) (hinner.append (.single (.passed name)))
    | (.failed f, _), hinner =>
      exact .cons (.entered name) (hinner.append (.single (.left name (.failure f))))
    | (.unfinished why, _), hinner =>
      exact .cons (.entered name) (hinner.append (.single (.left name (.interruption why))))

def whileTrue {cond : Run Bool} {body : Run Unit} (test : Story g cond) (inner : Story g body) :
    (fuel : Nat) → Story g (Run.whileTrue fuel cond body)
  | 0 => test.bind fun
    | true => .cutOff
    | false => .pure ()
  | fuel + 1 => test.bind fun
    | true => inner.bind fun _ => whileTrue test inner fuel
    | false => .pure ()

def forEach {body : Value → Run Unit} (inner : ∀ v, Story g (body v)) :
    (vs : List Value) → Story g (Run.forEach body vs)
  | [] => .pure ()
  | v :: vs => (inner v).bind fun _ => forEach inner vs

/-! ## Functions -/

def callBuiltin (line : Nat) (args : List Value) :
    (b : Builtin) → Story g (Script.callBuiltin g line b args)
  | .send => (onLine line _).bind fun text => (send text).bind fun _ => .pure _
  | .expect =>
    (onLine line _).bind fun wanted => (onLine line _).bind fun timeout =>
      (expect line wanted timeout).bind fun _ => .pure _
  | .log => (note _).bind fun _ => .pure _
  | .buildDelta =>
    (onLine line _).bind fun source => (onLine line _).bind fun target =>
      (buildDelta source target).bind fun _ => .pure _
  | .assert | .assertEq | .assertNe | .format | .int | .str | .len | .line | .fileName =>
    .still _ (still_plain.callBuiltin trivial g rfl args)

def call (line : Nat) (name : String) (args : List Value) :
    Story g (Script.call g line name args) :=
  show Story g (match Builtin.ofName? name with
    | none => Run.onLine line (.error (.unknownFunction name))
    | some b => Script.callBuiltin g line b args) from
  match Builtin.ofName? name with
  | none => .onLine _ _
  | some b => .callBuiltin line args b

def asCondition (line : Nat) (v : Value) : Story g (Script.asCondition line v) :=
  .still _ (still_plain.asCondition trivial v)

/-! ## Expressions and statements -/

mutual

def eval (g : Environment) : (e : Expr) → Story g (Script.eval g e)
  | .int _ _ | .str _ _ | .bool _ _ | .null _ => .pure _
  | .list _ items => (evalAll g items).bind fun _ => .pure _
  | .ident _ name => .still _ (still_plain.lookup trivial g name)
  | .unary _ _ operand => (eval g operand).bind fun _ => .onLine _ _
  | .binary _ .and left right =>
    (eval g left).bind fun l => (asCondition left.line l).bind fun
      | true => (eval g right).bind fun r => (asCondition right.line r).bind fun _ => .pure _
      | false => .pure _
  | .binary _ .or left right =>
    (eval g left).bind fun l => (asCondition left.line l).bind fun
      | true => .pure _
      | false => (eval g right).bind fun r => (asCondition right.line r).bind fun _ => .pure _
  -- each of the other operators by name, so that the evaluation shows both operands
  | .binary _ .add left right | .binary _ .sub left right | .binary _ .mul left right
  | .binary _ .div left right | .binary _ .rem left right | .binary _ .eq left right
  | .binary _ .ne left right | .binary _ .lt left right | .binary _ .le left right
  | .binary _ .gt left right | .binary _ .ge left right =>
    (eval g left).bind fun _ => (eval g right).bind fun _ => .onLine _ _
  | .field _ object _ => (eval g object).bind fun _ => .onLine _ _
  | .index _ object index => (eval g object).bind fun _ => (eval g index).bind fun _ => .onLine _ _
  | .call _ name args => (evalAll g args).bind fun vs => .call _ name vs
  | .method _ object name args =>
    (eval g object).bind fun v => (evalAll g args).bind fun vs =>
      .still _ (still_plain.methodCall trivial v name vs)

def evalAll (g : Environment) : (es : List Expr) → Story g (Script.evalAll g es)
  | [] => .pure _
  | e :: es => (eval g e).bind fun _ => (evalAll g es).bind fun _ => .pure _

end

def evalCondition (g : Environment) (e : Expr) : Story g (Script.evalCondition g e) :=
  (eval g e).bind fun v => .asCondition e.line v

mutual

def exec (g : Environment) (fuel : Nat) : (st : Stmt) → Story g (Script.exec g fuel st)
  | .declare _ name value => (eval g value).bind fun v => .declare name v
  | .assign line name value => (eval g value).bind fun v => .assign line name v
  | .evaluate _ e => (eval g e).bind fun _ => .pure ()
  | .branch _ cond body other => (evalCondition g cond).bind fun
    | true => .inScope [] (execAll g fuel body)
    | false => execOther g fuel other
  | .loop _ cond body =>
    .whileTrue (evalCondition g cond) (.inScope [] (execAll g fuel body)) fuel
  | .each _ name items body =>
    (eval g items).bind fun v => (onLine items.line v.elements).bind fun vs =>
      .forEach (fun w => .inScope [(name, w)] (execAll g fuel body)) vs
  | .block _ body => .inScope [] (execAll g fuel body)
  | .checkpoint _ name body => .checkpoint name (.inScope [] (execAll g fuel body))

def execAll (g : Environment) (fuel : Nat) : (ss : List Stmt) → Story g (Script.execAll g fuel ss)
  | [] => .pure ()
  | st :: ss => (exec g fuel st).bind fun _ => execAll g fuel ss

def execOther (g : Environment) (fuel : Nat) :
    (other : Option Stmt) → Story g (Script.execOther g fuel other)
  | none => .pure ()
  | some st => exec g fuel st

end

def run (g : Environment) (fuel : Nat) (p : Program) : Story g (Script.run g fuel p) :=
  .inScope [] (execAll g fuel p.stmts)

end Story
end Script
end CheckScript
