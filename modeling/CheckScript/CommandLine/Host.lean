/-
The programs at hand without a machine around.
-/
import CheckScript.Outside.Debugger
import CheckScript.TestCase.Execution

namespace CheckScript
namespace CommandLine

/-! ## Addresses -/

/-- A number as addresses are written: in base ten, eight or sixteen. -/
def addressNumber? (cs : List Char) : Option Nat :=
  let (base, digits) : Nat × List Char := match cs with
    | '0' :: 'x' :: ds | '0' :: 'X' :: ds => (16, ds)
    | '0' :: d :: ds => (8, d :: ds)
    | ds => (10, ds)
  if digits.isEmpty || digits.any fun c => base ≤ Shell.Arithmetic.digitValue c then none
  else some (Shell.Arithmetic.digits base digits).1

/-- Whether a text is the address of a machine in numbers.  The last of up to four
numbers stands for all bytes that are left. -/
def isNumeric (host : List Char) : Bool :=
  let numbers := (Text.cut '.' host).map addressNumber?
  let size := numbers.length
  size ≤ 4 && numbers.dropLast.all (·.any (· < 256)) &&
    (numbers.getLast?.getD none).any (· < Nat.pow 256 (5 - size))

/-- Whether a text is an address of the longer kind. -/
def isLongAddress (host : List Char) : Bool :=
  2 ≤ host.count ':' && host.all fun c => c == ':' || c == '.' || Shell.Arithmetic.digitValue c < 16

/-- Whether a text can be the name of a machine at all. -/
def canBeName (host : List Char) : Bool :=
  !host.isEmpty && host.head? != some '-' &&
    host.all fun c => c == '-' || c == '.' || Shell.isNameChar c

def lookupFault (reason : String) : String := "failed to lookup address information: " ++ reason

/-- Why nobody answers at a machine.  There is no network here, not even within the
machine, and nobody to ask for names. -/
def unreachableHost (host : List Char) : String :=
  let bare := match host with
    | '[' :: rest => if rest.getLast? = some ']' then rest.dropLast else host
    | host => host
  if host.contains '\x00' then FileFault.nulInPath.message
  else if isLongAddress bare then
    if bare == "::1".toList then "Cannot assign requested address (os error 99)"
    else "Network is unreachable (os error 101)"
  else if isNumeric host || host == "localhost".toList then
    "Network is unreachable (os error 101)"
  else if canBeName host then lookupFault "Temporary failure in name resolution"
  else lookupFault "Name or service not known"

/-- Why nobody answers at an address: no number follows a colon in it, or one that
is too large, or nobody is there. -/
def unreachable (address : String) : String :=
  let back := address.toList.reverse
  match back.dropWhile (· != ':') with
  | [] => "invalid socket address"
  | _ :: host =>
    match Integer.word? 16 (back.takeWhile (· != ':')).reverse with
    | none => "invalid port value"
    | some _ => unreachableHost host.reverse

/-! ## Programs -/

/-- Why a command cannot even be handed to the shell. -/
def nulInCommand : String := "nul byte found in provided data"

/-- Commands run in the shell, with some variables set. -/
def selfContained (bindings : List (String × String)) : Host where
  shell := Shell.withVariables bindings
  spawn command f :=
    if command.toList.contains '\x00' then .error nulInCommand
    else .ok (Debugger.ofCommand bindings command f)
  connect address := .error (unreachable address)

end CommandLine
end CheckScript
