/-
Scripts ready to run.
-/
import CheckScript.Script.Parser.Statement
import CheckScript.Script.Resolve
import CheckScript.Script.Tokenize

namespace CheckScript
namespace Script

def sortDiagnostics (ds : List Diagnostic) : List Diagnostic := ds.mergeSort Diagnostic.noLater

/-- Everything wrong with a script, in order of place.  Names are looked at only
when the syntax is clean, since a statement that could not be read may have
declared them. -/
def diagnose (text : String) : Program × List Diagnostic :=
  let words := tokenize text
  let tree := parse words.1
  let syntaxFaults := words.2 ++ tree.2
  if syntaxFaults.isEmpty then (tree.1, sortDiagnostics (resolve tree.1))
  else (tree.1, sortDiagnostics syntaxFaults)

def compile (text : String) : Except (List Diagnostic) Program :=
  let r := diagnose text
  if r.2.isEmpty then .ok r.1 else .error r.2

end Script
end CheckScript
