/-
Debuggers as command lines start them.
-/
import CheckScript.Debugger.Behaviour
import CheckScript.Outside.Shell.Standard

namespace CheckScript
namespace Debugger

/-- A command line after some events. -/
def sessionOf (bindings : List (String × String)) (command : String) (f : Files)
    (events : List Event) : Shell.Session :=
  Shell.session (Bytes.ofText command) bindings f (Bytes.ofText (inputOf events))
    (!events.contains .inputEnd)

/-- The lines of an output up to the first that is no text, and whether there is such
a line.  What stands behind the last newline is a line only once no more follows. -/
def readable (ended : Bool) (output : ByteArray) : List String × Bool :=
  let pieces := Text.cut '\n' (Bytes.ofArray output)
  let last := pieces.getLast?.getD []
  let whole := pieces.dropLast.map fun l => if l.getLast? = some '\r' then l.dropLast else l
  let all := if ended && !last.isEmpty then whole ++ [last] else whole
  let texts := all.map Bytes.text?
  let good := texts.takeWhile (·.isSome)
  (good.filterMap id, good.length != texts.length)

def linesOf (s : Shell.Session) : List String := (readable s.isOver s.output).1

/-- The debugger that a command line starts, and the files behind its start.  What it
writes at an event is what it writes more than before. -/
def ofCommand (bindings : List (String × String)) (command : String) (f : Files) :
    Debugger × Files :=
  let after := sessionOf bindings command f
  let debugger : Debugger :=
    { output := fun events =>
        match events with
        | [] => linesOf (after [])
        | .wait :: _ => []
        | e :: earlier => (linesOf (after (e :: earlier))).drop (linesOf (after earlier)).length
      ended := fun events =>
        let s := after events
        s.isOver || (readable false s.output).2
      errors := fun events => Bytes.text (Bytes.ofArray (after events).errors)
      platform := .ofProgram fun events => (after events).isOver }
  (debugger, (after []).files)

end Debugger
end CheckScript
