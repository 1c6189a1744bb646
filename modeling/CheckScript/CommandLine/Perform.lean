/-
What the command line does.
-/
import CheckScript.CommandLine.Help
import CheckScript.TestReport

namespace CheckScript
namespace CommandLine

/-- Where this program keeps its files. -/
structure Directories where
  config : Path
  cache : Path
deriving DecidableEq, Repr

namespace Directories

def programName : String := "dbg-conformance"

/-- A directory that the environment names by an absolute path, or else the
usual one in the home directory. -/
def choose (setting : Option String) (home usual : String) : Path :=
  let base := match setting.filter fun v => (Path.mk v).isAbsolute with
    | some v => Path.mk v
    | none => (Path.mk home).join ⟨usual⟩
  base.join ⟨programName⟩

def ofEnvironment (home : String) (config cache : Option String) : Directories where
  config := choose config home ".config"
  cache := choose cache home ".cache"

def configFile (d : Directories) : Path := d.config.join ⟨"config.toml"⟩

def deltas (d : Directories) : Path := d.cache.join ⟨"deltas"⟩

end Directories

/-- What a run of the program leaves behind. -/
structure Reply where
  code : Nat
  output : String
  errors : String
  files : Files

def textOf (lines : List String) : String := String.join (lines.map (· ++ "\n"))

def failed (f : Files) (failure : Failure) : Reply :=
  ⟨2, "", s!"Error: {failure.message}\n", f⟩

/-- The settings for a run.  The file in the usual place need not exist. -/
def settingsFor (d : Directories) (f : Files) (named : Option Path) : Except Failure Settings :=
  match named with
  | some path => Settings.load f path
  | none => if f.holds d.configFile then Settings.load f d.configFile else .ok .default

/-- The words of the command line win over the settings. -/
def override (c : RunCommand) (s : Settings) : Settings :=
  let s := match c.debugger with
    | none => s
    | some command => { s with command := some command, connect := none }
  match c.connect with
  | none => s
  | some address => { s with connect := some address }

def optionsFor (d : Directories) (f : Files) (c : RunCommand) : Except Failure TestSetup := do
  let settings ← settingsFor d f c.config
  let options ← TestSetup.ofSettings (override c settings) d.deltas
  match c.timeout with
  | none => return options
  | some seconds => return { options with expectTimeout := .ofSeconds seconds }

/-- The cases that a path means: those in a directory, or the file itself, which
is not looked for yet. -/
def casesFor (f : Files) (path : Path) (binary : Option Path) : Except Failure (List TestCase) :=
  if f.isDirectory path then
    if binary.isSome then .error (.configuration .binaryWithDirectory)
    else TestCase.allBelow f path
  else
    let c := TestCase.ofSource path
    .ok [match binary with
      | none => c
      | some binary => c.withBinary binary]

def resultsJson (results : List TestReport) : String :=
  (Json.array (results.map TestReport.json)).pretty 0 ++ "\n"

/-- The text about tests that were run, up to the closing lines. -/
def resultsText (verbose : Bool) (count : Nat) (results : List TestReport) : String :=
  textOf (["", s!"Running {count} test(s)"] ++ results.flatMap (TestReport.lines verbose))

/-- The complaint of a program that breaks down over the deadline of a wait. -/
def breakdownText : String := "overflow when adding duration to instant\n"

def run (d : Directories) (h : Host) (fuel : Nat) (verbose : Bool) (c : RunCommand) (f : Files) :
    Reply :=
  match optionsFor d f c with
  | .error failure => failed f failure
  | .ok options =>
    match casesFor f c.path c.binary with
    | .error failure => failed f failure
    | .ok [] => failed f (.configuration (.noSources c.path))
    | .ok cases =>
      let r := runCases h options fuel f cases
      let errors := String.join (r.reports.map TestReport.errors)
      let output := if c.json then "" else resultsText verbose cases.length r.reports
      if r.brokeDown then ⟨101, output, errors ++ breakdownText, r.files⟩
      else
        { code := if r.reports.all TestReport.passed then 0 else 1
          output := output ++
            if c.json then resultsJson r.reports else textOf (TestReport.summary r.reports)
          errors := errors
          files := r.files }

/-- Show the script of a source, whether or not it is in order. -/
def extract (path : Path) (f : Files) : Reply :=
  match (TestSource.load f path).bind TestSource.script with
  | .error failure => failed f failure
  | .ok script =>
    let output := if script.toList.getLast? = some '\n' then script else script ++ "\n"
    match Script.compile script with
    | .ok _ => ⟨0, output, "", f⟩
    | .error diagnostics => ⟨1, output, (Failure.rejected diagnostics).message ++ "\n", f⟩

/-- A number with blanks before it, up to a width of five. -/
def column (n : Nat) : String :=
  let digits := toString n
  String.ofList (List.replicate (5 - digits.length) ' ') ++ digits

def tagsJson (t : LineTags) : String :=
  (Json.object (t.entries.map fun e => (e.1, .number e.2))).pretty 0 ++ "\n"

def tagsText (path : Path) (t : LineTags) : String :=
  if t.isEmpty then s!"No line tags in {path.text}\n"
  else textOf (t.entries.map fun e => s!"  {column e.2}  {e.1}")

def tags (path : Path) (json : Bool) (f : Files) : Reply :=
  match (TestSource.load f path).bind TestSource.tags with
  | .error failure => failed f failure
  | .ok t => ⟨0, if json then tagsJson t else tagsText path t, "", f⟩

def perform (d : Directories) (h : Host) (fuel : Nat) (i : Invocation) (f : Files) : Reply :=
  match i.command with
  | .run c => run d h fuel i.verbose c f
  | .extract path => extract path f
  | .tags path json => tags path json f

/-- Words that are in no order get a complaint, but no words at all get help. -/
def usageText (fault : UsageFault) (args : List String) : String :=
  if args.isEmpty then helpText none else s!"error: {fault.message}\n"

/-- The whole program, from its arguments on. -/
def answer (d : Directories) (h : Host) (fuel : Nat) (args : List String) (f : Files) : Reply :=
  match read args with
  | .error fault => ⟨2, "", usageText fault args, f⟩
  | .ok .version => ⟨0, versionText, "", f⟩
  | .ok (.help command) => ⟨0, helpText command, "", f⟩
  | .ok (.carryOut i) => perform d h fuel i f

end CommandLine
end CheckScript
