/-
Commands that write text, and those that only answer a question.
-/
import CheckScript.Outside.Shell.Builtin.Basic
import CheckScript.Outside.Shell.Builtin.Condition
import CheckScript.Outside.Shell.Builtin.Printing
import CheckScript.Outside.Shell.Redirect

namespace CheckScript
namespace Shell
namespace Run

def echo (arguments : List Bytes) : Run Nat := do
  say (Printing.echo arguments)
  return 0

def complainAll : List (Bytes × Printing.Doubt) → Run Unit
  | [] => return ()
  | (argument, doubt) :: rest => do
    complain (argument ++ ": ".toList ++ doubt.message.toList)
    complainAll rest

def printf (arguments : List Bytes) : Run Nat := do
  let (_, operands) ← given "" "" arguments
  match operands with
  | [] => failWith "usage: printf format [arg ...]".toList
  | format :: values =>
    let (halt, p) := Printing.printf format values
    complainAll p.doubts.reverse
    let written := p.written.reverse.flatten
    match halt with
    | .done =>
      say written
      return if p.doubts.isEmpty then 0 else 1
    | .noDirective =>
      say written
      failWith "missing format character".toList
    | .badDirective text =>
      complain (text ++ ": invalid directive".toList)
      say written
      return 2

/-- What conditions on files look at. -/
def surroundings (programs : List Program) : Run Condition.Surroundings := do
  let m ← get
  let f := m.ownFiles
  return {
    files := f
    isDevice := fun name => (device? name).isSome
    isRunnable := fun name =>
      let (directory, last) := cutPath name
      (programDirectories.contains (String.ofList directory) &&
          (installed? programs last).isSome) ||
        match f.locate ⟨Bytes.text name⟩ with
        | .ok place => m.runnable.contains place
        | .error _ => false }

def test (r : Rules) (_ : Bool) (arguments : List Bytes) : Run Nat := do
  match condition (← surroundings r.programs) arguments with
  | .ok holds => return if holds then 0 else 1
  | .error text => failWith text

/-- Conditions between brackets. -/
def bracketed (r : Rules) (tested : Bool) (arguments : List Bytes) : Run Nat := do
  if arguments.getLast? = some [']'] then test r tested arguments.dropLast
  else failWith "missing ]".toList

def outputBuiltins : List Builtin :=
  [.ofRegular "echo" echo, .ofRegular "printf" printf, ⟨"test", false, false, test⟩,
    ⟨"[", false, false, bracketed⟩]

end Run
end Shell
end CheckScript
