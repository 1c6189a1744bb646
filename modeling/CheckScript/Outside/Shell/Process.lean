/-
Processes: commands that work on copies of what a shell has, and texts of commands
from their first line to their last.
-/
import CheckScript.Outside.Shell.Builtin.Basic
import CheckScript.Outside.Shell.Parser.Command
import CheckScript.Signal

namespace CheckScript
namespace Shell
namespace Run

/-! ## Texts -/

/-- Whether nothing is left but the end of the text. -/
def isThrough (r : Reading) : Bool :=
  r.rest.isEmpty && match r.ahead with
    | none | some .endOfText => true
    | some _ => false

/-- Run the commands of a text line by line, so that a fault further down is found
only when what stands before it has been done.  `more` tells that more may come
behind the text.  The answer is whether there have been any commands. -/
def runLines (r : Rules) (tested more ran : Bool) (reading : Reading) : Nat → Run Bool
  | 0 => throw .exhausted
  | fuel + 1 => do
    if isThrough reading then return ran
    match readLine reading with
    | .error refusal =>
      if more then throw .waiting
      modify fun m => { m with line := refusal.line }
      failWith ("Syntax error: ".toList ++ refusal.fault.message.toList)
    | .ok (.nothing, rest) => runLines r tested more ran rest fuel
    | .ok (command, rest) =>
      r.evaluate tested command
      runLines r tested more true rest fuel

/-- Run a text of commands.  The status is zero if there are none. -/
def runText (r : Rules) (tested : Bool) (text : Bytes) : Run Unit := do
  let ran ← runLines r tested false false (.ofText text 1) (text.length + 2)
  if !ran then setStatus 0

/-! ## Ends -/

/-- The traps that a process hands down: those for signals that are ignored. -/
def lastingTraps (traps : List (Nat × Bytes)) : List (Nat × Bytes) :=
  traps.filter fun t => t.2.isEmpty && t.1 != 0

/-- Run a shell to its end.  What has been left for its end is done with the status
that it ends with. -/
def toEnd (r : Rules) (body : Run Unit) : Run Ending := do
  let ending ← match ← attempt body with
    | .ok _ => pure (Ending.finished (← get).status)
    | .error stop => pure (endingOf stop)
  match ending with
  | .finished status =>
    let m ← get
    match m.traps.find? fun t => t.1 == 0 with
    | none => return ending
    | some (_, action) =>
      set { m with traps := m.traps.filter fun t => t.1 != 0, status, caller := none }
      match ← attempt (runText r false action) with
      | .ok _ | .error (.returned _) => return .finished status
      | .error stop => return endingOf stop
  | ending => return ending

/-- Run something in a process of its own.  It takes over only the signals that are
ignored. -/
def inProcess (r : Rules) (body : Run Unit) : Run Ending := do
  let process : Run Ending := do
    modify fun m => { m with traps := lastingTraps m.traps }
    toEnd r body
  match ← apart process with
  | .ok ending => return ending
  | .error stop => return endingOf stop

/-! ## The background -/

/-- A number for a new process. -/
def newNumber : Run Nat := do
  let m ← get
  set { m with processes := m.processes + 1 }
  return m.processes + 1

/-- Leave a command for later. -/
def postpone (number : Nat) (body : Command) : Run Unit :=
  modify fun m =>
    let context := { m.toContext with traps := lastingTraps m.traps }
    { m with pending := m.pending ++ [⟨number, context, body⟩] }

/-- Run a command in the background, where there is nothing to read. -/
def runPending (r : Rules) (p : Pending) : Run Unit := do
  let ending ← inProcess r do
    modify fun m => { m with toContext := p.context }
    joinNew 0 .nothing
    r.evaluate false p.body
  let ended ← match ending with
    | .waiting => pure (Ending.finished 0)
    | ending => pure (.finished (← statusOf ending))
  modify fun m => { m with ended := (p.number, ended) :: m.ended }

/-- No more commands than this run in the background. -/
def maxPending : Nat := Nat.pow 2 14

def runAllPending (r : Rules) : Nat → Run Unit
  | 0 => throw .exhausted
  | fuel + 1 => do
    match (← get).pending with
    | [] => return ()
    | p :: rest =>
      modify fun m => { m with pending := rest }
      runPending r p
      runAllPending r fuel

/-- Let the commands in the background run to their ends. -/
def giveWay (r : Rules) : Run Unit := runAllPending r maxPending

/-- Do something, and with it what it leaves to the background. -/
def withBackground {α : Type} (r : Rules) (body : Run α) : Run α := do
  let earlier := (← get).pending
  modify fun m => { m with pending := [] }
  let a ← body
  giveWay r
  modify fun m => { m with pending := earlier }
  return a

/-! ## Output -/

/-- The output of a command. -/
def capture (r : Rules) (command : Command) : Run Bytes := do
  let index ← addPipe false
  let ending ← withBackground r <| inProcess r do
    joinNew 1 (.pipe index)
    r.evaluate false command
  let status ← statusOf ending
  modify fun m => { m with captured := status }
  return Bytes.ofArray (← pipe index).content

/-- What is known of a command that has been ended by a signal. -/
def reportSignal (signal : Nat) : Run Nat := do
  if signal ≠ 2 ∧ signal ≠ 13 then
    let _ ← write 2 ((Signal.description signal).toList ++ ['\n'])
  return 128 + signal

end Run
end Shell
end CheckScript
