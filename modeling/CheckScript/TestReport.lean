/-
Results of tests, and their text.
-/
import CheckScript.Json
import CheckScript.TestCase.Execution

namespace CheckScript

/-- Programs answer at once here, so that a test takes no time. -/
structure TestReport where
  name : String
  source : Path
  outcome : Script.Outcome Unit
  output : List String
  errors : String
  duration : Duration

namespace TestReport

def ofExecution (c : TestCase) (e : Execution) : TestReport where
  name := c.name
  source := c.source
  outcome := e.outcome
  output := e.transcript.lines
  errors := (e.connection.map Connection.errors).getD ""
  duration := .zero

def passed (r : TestReport) : Bool :=
  match r.outcome with
  | .done _ => true
  | _ => false

def failure? (r : TestReport) : Option Failure :=
  match r.outcome with
  | .failed f => some f
  | _ => none

def millis (r : TestReport) : Nat := r.duration.nanos / 1000000

def optional (name : String) (text : Option String) : List (String × Json) :=
  text.toList.map fun t => (name, .string t)

def json (r : TestReport) : Json :=
  .object ([("name", .string r.name), ("source", .string r.source.text),
      ("passed", .bool r.passed), ("duration_ms", .number r.millis)] ++
    optional "error" (r.failure?.map Failure.message) ++
    optional "error_kind" (r.failure?.map fun f => f.kind.name) ++
    [("output", .array (r.output.map .string))])

/-- The lines that show a result.  The transcript comes with failures, or always
if that is asked for. -/
def lines (verbose : Bool) (r : TestReport) : List String :=
  [(if r.passed then "✓ " else "✗ ") ++ r.name ++ s!" ({r.millis}ms)"] ++
    (r.failure?.toList.map fun f => "  " ++ f.message) ++
    (if verbose || !r.passed then r.output.map ("    " ++ ·) else [])

/-- The closing lines with the counts. -/
def summary (results : List TestReport) : List String :=
  let passed := results.countP passed
  let failed := results.length - passed
  ["", if failed = 0 then s!"✓ {passed} passed" else s!"✗ {failed} failed, {passed} passed"]

end TestReport

/-- What tests have come to that were run one after another. -/
structure TestRun where
  reports : List TestReport
  brokeDown : Bool
  files : Files

/-- Run tests, each with a debugger of its own.  If the program breaks down over
one of them, that one has no result, and those behind it are not run. -/
def runCases (h : Host) (o : TestSetup) (fuel : Nat) (f : Files) : List TestCase → TestRun
  | [] => ⟨[], false, f⟩
  | c :: cs =>
    let e := c.run h o fuel f
    match e.outcome with
    | .unfinished .breakdown => ⟨[], true, e.files⟩
    | _ =>
      let r := runCases h o fuel e.files cs
      ⟨TestReport.ofExecution c e :: r.reports, r.brokeDown, r.files⟩

end CheckScript
