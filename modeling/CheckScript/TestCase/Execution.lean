/-
One test from its source to the end of its debugger.
-/
import CheckScript.Script.Compile
import CheckScript.Script.Interpreter
import CheckScript.Settings
import CheckScript.TestSource
import CheckScript.TestCase.Basic

namespace CheckScript

/-- The programs that a run can use. -/
structure Host where
  shell : Shell
  spawn : String → Files → Except String (Debugger × Files)
  connect : String → Except String Debugger

structure TestSetup where
  target : DebuggerAccess
  expectTimeout : Duration
  closeGrace : Duration
  connectTimeout : Duration
  delta : Option DeltaCommand

namespace TestSetup

/-- The options that settings give.  There must be a debugger in them. -/
def ofSettings (s : Settings) (directory : Path) : Except Failure TestSetup :=
  s.target.map fun target =>
    { target
      expectTimeout := s.expectTimeout
      closeGrace := s.closeGrace
      connectTimeout := s.connectTimeout
      delta := s.generator directory }

end TestSetup

namespace Host

/-- Start or reach a debugger. -/
def launch (h : Host) (target : DebuggerAccess) (f : Files) : Except Failure (Debugger × Files) :=
  match target with
  | .spawn command =>
    if Text.isBlankText command then .error (.configuration .blankCommand)
    else (h.spawn command f).mapError fun reason => .notStarted command reason
  | .connect address =>
    match h.connect address with
    | .error reason => .error (.notStarted address reason)
    | .ok debugger => .ok (debugger, f)

end Host

/-- What a test has come to.  There is a connection if its debugger was started, in
the state after the debugger was shut down.  A test that is unfinished has come to
nothing, and no more is made of it. -/
structure Execution where
  outcome : Script.Outcome Unit
  transcript : Transcript
  connection : Option Connection
  files : Files

def openingBanner : String := "------ Test script ------"

def closingBanner : String := "-------------------------"

/-- A script between its banners. -/
def announced (script : String) : Transcript :=
  ((Transcript.empty.push (.note openingBanner)).push (.note script)).push (.note closingBanner)

namespace TestCase

/-- A test that has failed before its debugger was started. -/
def unstarted (failure : Failure) (transcript : Transcript) (f : Files) : Execution :=
  ⟨.failed failure, transcript, none, f⟩

/-- The tags and the script of the source. -/
def read (c : TestCase) (f : Files) : Except Failure (LineTags × String) :=
  match TestSource.load f c.source with
  | .error failure => .error failure
  | .ok source =>
    match source.tags, source.script with
    | .error failure, _ => .error failure
    | _, .error failure => .error failure
    | .ok tags, .ok script => .ok (tags, script)

/-- Run a script against a debugger that has just been started, and shut the
debugger down whatever the script has come to. -/
def drive (c : TestCase) (h : Host) (o : TestSetup) (fuel : Nat) (tags : LineTags)
    (program : Script.Program) (debugger : Debugger) (transcript : Transcript) (f : Files) :
    Execution :=
  let globals : Script.Environment :=
    { tags, source := c.source, binary := c.binary, timeout := o.expectTimeout, delta := o.delta,
      shell := h.shell }
  let r := Script.run globals fuel program ⟨.start debugger .mi transcript, f, []⟩
  let connection := r.2.connection.close
  ⟨r.1, connection.transcript, some connection, r.2.files⟩

/-- Run a test.  Its debugger is started only when its script is found to be in
order. -/
def run (c : TestCase) (h : Host) (o : TestSetup) (fuel : Nat) (f : Files) : Execution :=
  match c.read f with
  | .error failure => unstarted failure .empty f
  | .ok (tags, script) =>
    match Script.compile script with
    | .error diagnostics => unstarted (.rejected diagnostics) (announced script) f
    | .ok program =>
      match h.launch o.target f with
      | .error failure => unstarted failure (announced script) f
      | .ok (debugger, started) =>
        c.drive h o fuel tags program debugger (announced script) started

end TestCase
end CheckScript
