/-
What the program says about itself.
-/
import CheckScript.CommandLine.Arguments

namespace CheckScript
namespace CommandLine

/-- The name of the program as its help shows it. -/
def shownName : String := "conformance"

def versionText : String := shownName ++ " 0.1.0\n"

def about : String := "Script-driven debugger conformance tests"

/-- Two columns: names, and what they are for. -/
def table (rows : List (String × String)) : List String :=
  let width := (rows.map fun r => r.1.length).foldl max 0
  rows.map fun r =>
    "  " ++ r.1 ++ String.ofList (List.replicate (width - r.1.length + 2) ' ') ++ r.2

/-- An option as it is written.  Its value goes by its name in capitals. -/
def OptionForm.shown (f : OptionForm) : String :=
  let letter := match f.letter with
    | some c => s!"-{String.singleton c}, "
    | none => "    "
  let value := if f.takesValue then s!" <{f.name.toUpper}>" else ""
  s!"{letter}--{f.name}{value}"

/-- What options at the same place in two lists are ordered by: a letter, a small one
before the large one, or else the name. -/
def OptionForm.key (f : OptionForm) : String :=
  match f.letter with
  | some c => String.ofList [c.toLower, if c.isUpper then '1' else '0']
  | none => f.name

/-- Options in the order of help: those of the command and those of the program side
by side, and behind them the questions. -/
def inOrder (own questions : List OptionForm) : List OptionForm :=
  let placed := own.zipIdx ++ globalOptions.zipIdx
  let sorted := placed.mergeSort fun a b =>
    a.2 < b.2 || (a.2 == b.2 && decide (a.1.key ≤ b.1.key))
  sorted.map (·.1) ++ questions

def optionLines (own questions : List OptionForm) : List String :=
  "Options:" :: table ((inOrder own questions).map fun f => (f.shown, f.about))

def programHelp : List String :=
  [about, "", s!"Usage: {shownName} [OPTIONS] <COMMAND>", "", "Commands:"] ++
    table ((commandForms.map fun c => (c.name, c.about)) ++
      [("help", "Print this message or the help of the given subcommand(s)")]) ++
    [""] ++ optionLines [] [helpOption, versionOption]

def CommandForm.help (c : CommandForm) : List String :=
  [c.about, "", s!"Usage: {shownName} {c.name} [OPTIONS] <PATH>", "", "Arguments:"] ++
    table [("<PATH>", c.pathAbout)] ++ [""] ++ optionLines c.options [helpOption]

/-- Help with the program, or with a command. -/
def helpText (command : Option String) : String :=
  let form := command.bind fun name => commandForms.find? fun c => c.name == name
  String.join (((form.map CommandForm.help).getD programHelp).map (· ++ "\n"))

end CommandLine
end CheckScript
