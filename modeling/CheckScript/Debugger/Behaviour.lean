/-
A debugger as its users know it: lines that it writes, in answer to what
happens to it.  Nothing is asked of a debugger but that the same course of
events gets the same answer, so that every program that reads and writes lines
is one.
-/
import CheckScript.Duration
import CheckScript.Files.Fault
import CheckScript.Text.Lines

namespace CheckScript

/-- What can happen to a debugger: a text and a newline reach its input, or are
lost on their way, time passes while a test waits for output, its input ends. -/
inductive Event where
  | input (text : String)
  | lost (text : String)
  | wait
  | inputEnd
deriving DecidableEq, Repr

/-- What the machine adds to a debugger that has gone through some events, the
latest of which is given first: the fault by which writing a text to its input
fails, if it does, and the reading of the clock. -/
structure Platform where
  refusal : List Event → String → Option FileFault
  clock : List Event → Duration

/-- A machine that no event makes any difference to. -/
def Platform.steady (refusal : String → Option FileFault) (now : Duration) : Platform where
  refusal _ := refusal
  clock _ := now

/-- Nothing is lost, and the machine is a second old. -/
def Platform.plain : Platform := .steady (fun _ => none) (.ofSeconds 1)

/-- Whether time has passed since a program ended.  Until then it may still be there,
and can be written to. -/
def isGone (ended : List Event → Bool) : List Event → Bool
  | [] => false
  | .wait :: events => ended events
  | _ :: events => isGone ended events

/-- Nobody is there any more to read what is written to a program that is gone. -/
def Platform.ofProgram (ended : List Event → Bool) : Platform where
  refusal events _ := if isGone ended events then some .brokenPipe else none
  clock _ := .ofSeconds 1

/-- What a debugger has done when it has gone through some events, the latest of
which is given first: the lines that it wrote at that one, whether its output has
ended, and all that it has written about errors.  Before the first event a debugger
has started. -/
structure Debugger where
  output : List Event → List String
  ended : List Event → Bool
  errors : List Event → String
  platform : Platform := .plain

namespace Debugger

/-- The debugger on another machine. -/
def on (d : Debugger) (p : Platform) : Debugger := { d with platform := p }

/-- Output that does not depend on the input. -/
def fixed (lines : List String) (ended : Bool) : Debugger where
  output events := if events.isEmpty then lines else []
  ended _ := ended
  errors _ := ""

/-- The text that events put on the input. -/
def inputOf : List Event → String
  | [] => ""
  | .input text :: events => inputOf events ++ text ++ "\n"
  | _ :: events => inputOf events

/-- The lines that a text and a newline behind it put on an input. -/
def inputLines (text : String) : List String := Text.lines (text ++ "\n")

/-- A debugger that writes back what it reads. -/
def echo : Debugger where
  output
    | .input text :: _ => inputLines text
    | _ => []
  ended _ := false
  errors _ := ""

end Debugger
end CheckScript
