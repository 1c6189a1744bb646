/-
Command lines as their callers know them.
-/
import CheckScript.Failure
import CheckScript.Files.Tree

namespace CheckScript

/-- A command line with the variables that it is given and the directory that it
starts in. -/
structure ShellCall where
  command : String
  environment : List (String × String)
  directory : Path

/-- What a command line leaves behind. -/
structure ShellReply where
  status : ExitStatus
  output : String
  errors : String
  files : Files

/-- Any rule by which command lines change files. -/
abbrev Shell := ShellCall → Files → ShellReply

end CheckScript
