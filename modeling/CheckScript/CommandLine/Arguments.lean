/-
The words of the command line.
-/
import CheckScript.Integer
import CheckScript.Path
import CheckScript.Text.Lines

namespace CheckScript
namespace CommandLine

structure RunCommand where
  path : Path
  debugger : Option String
  connect : Option String
  binary : Option Path
  timeout : Option Nat
  config : Option Path
  json : Bool
deriving DecidableEq, Repr

inductive Command where
  | run (c : RunCommand)
  | extract (path : Path)
  | tags (path : Path) (json : Bool)
deriving DecidableEq, Repr

structure Invocation where
  command : Command
  verbose : Bool
deriving DecidableEq, Repr

/-- What the words ask for: a command to be carried out, the version, or help with
the program or one of its commands. -/
inductive Request where
  | carryOut (i : Invocation)
  | version
  | help (command : Option String)
deriving DecidableEq, Repr

inductive UsageFault where
  | noCommand
  | unknownCommand (word : String)
  | unknownOption (word : String)
  | noValue (option : String)
  | unwantedValue (option : String)
  | repeated (option : String)
  | badNumber (option word : String)
  | conflict (option other : String)
  | noPath
  | unexpected (word : String)
deriving DecidableEq, Repr

def UsageFault.message : UsageFault → String
  | noCommand => "a subcommand is required"
  | unknownCommand word => s!"unrecognized subcommand '{word}'"
  | unknownOption word => s!"unexpected argument '{word}' found"
  | noValue option => s!"a value is required for '{option}' but none was supplied"
  | unwantedValue option => s!"unexpected value for '{option}' found"
  | repeated option => s!"the argument '{option}' cannot be used multiple times"
  | badNumber option word => s!"invalid value '{word}' for '{option}'"
  | conflict option other => s!"the argument '{option}' cannot be used with '{other}'"
  | noPath => "the required argument '<PATH>' was not provided"
  | unexpected word => s!"unexpected argument '{word}' found"

/-- An option of a command: its long name, its letter, whether a value follows it,
and what it is for. -/
structure OptionForm where
  name : String
  letter : Option Char
  takesValue : Bool
  about : String
deriving DecidableEq, Repr

/-- Options that may stand anywhere. -/
def globalOptions : List OptionForm :=
  [⟨"verbose", some 'v', false, "Verbose output, including passing tests' transcripts"⟩,
    ⟨"log-file", none, false, "Also write a trace log under the data directory"⟩]

def helpOption : OptionForm := ⟨"help", some 'h', false, "Print help"⟩

def versionOption : OptionForm := ⟨"version", some 'V', false, "Print version"⟩

/-- A command as the words name it. -/
structure CommandForm where
  name : String
  about : String
  pathAbout : String
  options : List OptionForm
deriving DecidableEq, Repr

def runForm : CommandForm where
  name := "run"
  about := "Run test sources against a debugger"
  pathAbout := "Test source file, or a directory searched for sources"
  options :=
    [⟨"debugger", some 'd', true, "Shell command that starts the debugger (overrides config)"⟩,
      ⟨"connect", none, true, "Attach to a debugger listening on this address instead"⟩,
      ⟨"binary", some 'b', true, "Program under debug, when running a single source"⟩,
      ⟨"timeout", some 't', true, "Default expect timeout in seconds"⟩,
      ⟨"config", none, true, "Configuration file (default: platform config dir)"⟩,
      ⟨"json", none, false, "Output results as JSON"⟩]

def extractForm : CommandForm where
  name := "extract"
  about := "Print the check script hidden in a source's comments"
  pathAbout := "Test source file"
  options := []

def tagsForm : CommandForm where
  name := "tags"
  about := "List the line tags of a source"
  pathAbout := "Test source file"
  options := [⟨"json", none, false, "Output as JSON"⟩]

def commandForms : List CommandForm := [runForm, extractForm, tagsForm]

/-- What has been read: options with their values, empty for flags, and the
other words. -/
structure Words where
  options : List (String × String)
  others : List String
deriving DecidableEq, Repr

namespace Words

def has (w : Words) (name : String) : Bool := w.options.any fun o => o.1 == name

def get? (w : Words) (name : String) : Option String :=
  (w.options.find? fun o => o.1 == name).map (·.2)

/-- Whether help or the version has been asked for, so that nothing else counts. -/
def isQuestion (w : Words) : Bool := w.has "help" || w.has "version"

/-- An option is given once. -/
def add (w : Words) (name value : String) : Except UsageFault Words :=
  if w.has name then .error (.repeated ("--" ++ name))
  else .ok { w with options := w.options ++ [(name, value)] }

end Words

/-- A word behind a dash may not be the value of an option, unless it is only a
dash. -/
def isDashed (word : String) : Bool := Text.startsWith word "-" && word != "-"

/-- Letters behind one dash.  What follows the letter of an option with a value
is that value; otherwise the value is the next word, which is left to the
caller. -/
def letters (forms : List OptionForm) (w : Words) :
    List Char → Except UsageFault (Words × Option String)
  | [] => .ok (w, none)
  | c :: cs =>
    match forms.find? fun f => f.letter == some c with
    | none => .error (.unknownOption (String.ofList ['-', c]))
    | some f =>
      if f.takesValue then
        match cs with
        | [] => .ok (w, some f.name)
        | '=' :: value => (w.add f.name (String.ofList value)).map (·, none)
        | value => (w.add f.name (String.ofList value)).map (·, none)
      else
        match w.add f.name "" with
        | .error fault => .error fault
        | .ok added => if added.isQuestion then .ok (added, none) else letters forms added cs

/-- A word behind two dashes, as for `letters`. -/
def long (forms : List OptionForm) (w : Words) (word : List Char) :
    Except UsageFault (Words × Option String) :=
  let name := String.ofList (word.takeWhile (· != '='))
  match forms.find? fun f => f.name == name, word.dropWhile (· != '=') with
  | none, _ => .error (.unknownOption ("--" ++ name))
  | some f, [] =>
    if f.takesValue then .ok (w, some f.name) else (w.add f.name "").map (·, none)
  | some f, _ :: value =>
    if f.takesValue then (w.add f.name (String.ofList value)).map (·, none)
    else .error (.unwantedValue ("--" ++ name))

/-- Read words up to the first that is no option when `stop` is set, or all of
them.  `waiting` is the option whose value comes next; behind a word of two
dashes nothing is an option. -/
def readWords (forms : List OptionForm) (stop : Bool) (w : Words) (waiting : Option String) :
    List String → Except UsageFault (Words × List String)
  | [] =>
    match waiting with
    | none => .ok (w, [])
    | some name => .error (.noValue ("--" ++ name))
  | word :: rest =>
    match waiting with
    | some name =>
      if isDashed word then .error (.noValue ("--" ++ name))
      else
        match w.add name word with
        | .error fault => .error fault
        | .ok added => readWords forms stop added none rest
    | none =>
      match word.toList with
      | ['-', '-'] =>
        if stop then .ok (w, rest) else .ok ({ w with others := w.others ++ rest }, [])
      | '-' :: '-' :: name =>
        match long forms w name with
        | .error fault => .error fault
        | .ok (added, next) =>
          if added.isQuestion then .ok (added, rest) else readWords forms stop added next rest
      | '-' :: c :: cs =>
        match letters forms w (c :: cs) with
        | .error fault => .error fault
        | .ok (added, next) =>
          if added.isQuestion then .ok (added, rest) else readWords forms stop added next rest
      | _ =>
        if stop then .ok (w, word :: rest)
        else readWords forms stop { w with others := w.others ++ [word] } none rest

def onePath (w : Words) : Except UsageFault Path :=
  match w.others with
  | [] => .error .noPath
  | [path] => if path.isEmpty then .error (.noValue "<PATH>") else .ok ⟨path⟩
  | _ :: word :: _ => .error (.unexpected word)

def number (option : String) : Option String → Except UsageFault (Option Nat)
  | none => .ok none
  | some word =>
    match Integer.word? 64 word.toList with
    | none => .error (.badNumber option word)
    | some n => .ok (some n)

/-- A path that is given must not be empty. -/
def pathValue (option : String) : Option String → Except UsageFault (Option Path)
  | none => .ok none
  | some word => if word.isEmpty then .error (.noValue option) else .ok (some ⟨word⟩)

/-- The values of options must be in order even if help is asked for behind them. -/
def runValues (w : Words) : Except UsageFault (Option Nat × Option Path × Option Path) := do
  let timeout ← number "--timeout" (w.get? "timeout")
  let binary ← pathValue "--binary" (w.get? "binary")
  let config ← pathValue "--config" (w.get? "config")
  return (timeout, binary, config)

def runCommand (w : Words) : Except UsageFault Command := do
  let (timeout, binary, config) ← runValues w
  if w.has "connect" && w.has "debugger" then throw (.conflict "--connect" "--debugger")
  let path ← onePath w
  return .run { path, debugger := w.get? "debugger", connect := w.get? "connect", binary, timeout,
                config, json := w.has "json" }

def command (form : CommandForm) (w : Words) : Except UsageFault Command := do
  match form.name with
  | "run" => runCommand w
  | "tags" => return .tags (← onePath w) (w.has "json")
  | _ => return .extract (← onePath w)

def findForm (word : String) : Except UsageFault CommandForm :=
  match commandForms.find? fun f => f.name == word with
  | some form => .ok form
  | none => .error (.unknownCommand word)

/-- Read the words behind the name of a command. -/
def readCommand (form : CommandForm) (verbose : Bool) (rest : List String) :
    Except UsageFault Request := do
  let forms := form.options ++ globalOptions ++ [helpOption]
  let (w, _) ← readWords forms false ⟨[], []⟩ none rest
  if w.has "help" then
    let _ ← runValues w
    return .help (some form.name)
  else return .carryOut { command := ← command form w, verbose := verbose || w.has "verbose" }

def read (args : List String) : Except UsageFault Request := do
  let forms := globalOptions ++ [helpOption, versionOption]
  let (before, rest) ← readWords forms true ⟨[], []⟩ none args
  if before.has "version" then return .version
  else if before.has "help" then return .help none
  else
    match rest with
    | [] => throw .noCommand
    | ["help"] => return .help none
    | "help" :: word :: _ => return .help (some (← findForm word).name)
    | word :: rest => readCommand (← findForm word) (before.has "verbose") rest

end CommandLine
end CheckScript
