/-
What a running script can see and change.
-/
import CheckScript.Connection
import CheckScript.Delta
import CheckScript.Script.Operation
import CheckScript.Script.Template

namespace CheckScript
namespace Script

/-- What stays the same during a run. -/
structure Environment where
  tags : LineTags
  source : Path
  binary : Path
  timeout : Duration
  delta : Option DeltaCommand
  shell : Shell

/-- Time that a script waits for a line unless it is told otherwise. -/
def defaultTimeout : Duration := .ofSeconds 10

/-- The variables of one block with their values. -/
abbrev Scope := List (String × Value)

namespace Scope

def get? (s : Scope) (name : String) : Option Value :=
  match s with
  | [] => none
  | (n, v) :: rest => if n = name then some v else get? rest name

def put (s : Scope) (name : String) (v : Value) : Scope :=
  match s with
  | [] => [(name, v)]
  | (n, w) :: rest => if n = name then (n, v) :: rest else (n, w) :: put rest name v

end Scope

/-- The scopes of the blocks that are open, the innermost first. -/
abbrev Scopes := List Scope

namespace Scopes

def get? (s : Scopes) (name : String) : Option Value :=
  match s with
  | [] => none
  | scope :: outer => (scope.get? name).or (get? outer name)

def declare (s : Scopes) (name : String) (v : Value) : Scopes :=
  match s with
  | [] => []
  | scope :: outer => scope.put name v :: outer

/-- Change the innermost variable with this name. -/
def assign (s : Scopes) (name : String) (v : Value) : Option Scopes :=
  match s with
  | [] => none
  | scope :: outer =>
    if (scope.get? name).isSome then some (scope.put name v :: outer)
    else (assign outer name v).map (scope :: ·)

end Scopes

structure Session where
  connection : Connection
  files : Files
  scopes : Scopes

/-- Why a step was not run to its end: a loop in it went on for too long, or the
program broke down over a wait without a deadline. -/
inductive Interruption where
  | loop
  | breakdown
deriving DecidableEq, Repr

/-- How a step ended.  One that is unfinished has neither a value nor a failure. -/
inductive Outcome (α : Type) where
  | done (a : α)
  | failed (f : Failure)
  | unfinished (why : Interruption)

/-- A step of a script. -/
def Run (α : Type) : Type := Session → Outcome α × Session

namespace Run

instance : Monad Run where
  pure a := fun s => (.done a, s)
  bind p f := fun s =>
    match p s with
    | (.done a, t) => f a t
    | (.failed e, t) => (.failed e, t)
    | (.unfinished why, t) => (.unfinished why, t)

theorem pure_apply {α : Type} (a : α) (s : Session) : (pure a : Run α) s = (.done a, s) := rfl

theorem bind_apply {α β : Type} (p : Run α) (f : α → Run β) (s : Session) :
    (p >>= f) s = match p s with
      | (.done a, t) => f a t
      | (.failed e, t) => (.failed e, t)
      | (.unfinished why, t) => (.unfinished why, t) := rfl

def fail {α : Type} (f : Failure) : Run α := fun s => (.failed f, s)

/-- A loop is not run any further. -/
def cutOff {α : Type} : Run α := fun s => (.unfinished .loop, s)

def scopes : Run Scopes := fun s => (.done s.scopes, s)

def setScopes (scopes : Scopes) : Run Unit := fun s => (.done (), { s with scopes := scopes })

/-- Write a line into the transcript. -/
def note (text : String) : Run Unit := fun s =>
  (.done (), { s with connection := s.connection.note text })

def ofExcept {α : Type} : Except Failure α → Outcome α
  | .ok a => .done a
  | .error f => .failed f

def send (text : String) : Run Unit := fun s =>
  let r := s.connection.send text
  (ofExcept r.1, { s with connection := r.2 })

/-- Wait for a line.  A failure is noted with the line of the script. -/
def expect (line : Nat) (wanted : String) (timeout : Duration) : Run Record := fun s =>
  match s.connection.expect wanted timeout with
  | (none, c) => (.unfinished .breakdown, { s with connection := c })
  | (some (.ok r), c) => (.done r, { s with connection := c })
  | (some (.error f), c) =>
    (.failed f, { s with connection := c.note s!"line {line}: {f.message}" })

def buildDelta (g : Environment) (source target : String) : Run Path := fun s =>
  match g.delta with
  | none => (.failed (.delta target .notConfigured), s)
  | some generator =>
    let r := generator.build g.shell source target s.files
    (ofExcept r.1, { s with files := r.2 })

/-- The value of a pure operation on line `line`. -/
def onLine {α : Type} (line : Nat) : Except Fault α → Run α
  | .ok a => pure a
  | .error f => fail (.script line f [])

/-- Run a block in a scope of its own. -/
def inScope (scope : Scope) (body : Run Unit) : Run Unit := fun s =>
  let r := body { s with scopes := scope :: s.scopes }
  (r.1, { r.2 with scopes := r.2.scopes.drop 1 })

/-- Log entering and leaving of a named block.  A failure that leaves it is noted
before it takes the name of the block along. -/
def checkpoint (name : String) (body : Run Unit) : Run Unit := do
  note s!"checkpoint '{name}'"
  fun s =>
    match body s with
    | (.done _, t) => note s!"checkpoint '{name}' passed" t
    | (.failed f, t) =>
      (.failed (f.inCheckpoint name),
        { t with connection := t.connection.note s!"checkpoint '{name}' failed: {f.message}" })
    | (.unfinished why, t) => (.unfinished why, t)

/-- Run the body while the condition holds, at most `fuel` times. -/
def whileTrue (fuel : Nat) (cond : Run Bool) (body : Run Unit) : Run Unit := do
  if ← cond then
    match fuel with
    | 0 => cutOff
    | fuel + 1 => do
      body
      whileTrue fuel cond body
  else return ()

def forEach (body : Value → Run Unit) : List Value → Run Unit
  | [] => return ()
  | v :: vs => do
    body v
    forEach body vs

end Run
end Script
end CheckScript
