/-
A debugger without a program, for tests of the tests: it keeps breakpoints,
and a run of its program stops at each line that has one.  It counts breakpoints
and lines in words of 32 bits, and breaks down over a sum that is none.
-/
import CheckScript.Debugger.Behaviour
import CheckScript.Integer
import CheckScript.Text.Blank

namespace CheckScript
namespace Mock

structure Breakpoint where
  line : Nat
  number : Nat
deriving DecidableEq, Repr

/-- Whether the mock reads on, has exited as told, or has broken down. -/
inductive Status where
  | reading
  | exited
  | broken
deriving DecidableEq, Repr

structure State where
  inserted : Nat
  breakpoints : List Breakpoint
  file : String
  stoppedAt : Option Nat
  status : Status
deriving DecidableEq, Repr

namespace State

def start : State :=
  { inserted := 0, breakpoints := [], file := "", stoppedAt := none, status := .reading }

end State

/-- The word behind `n`, if there is one. -/
def next? (n : Nat) : Option Nat := if n + 1 < Nat.pow 2 32 then some (n + 1) else none

/-- Breakpoints are kept in the order of their lines, then of their numbers. -/
def place (b : Breakpoint) : List Breakpoint → List Breakpoint
  | [] => [b]
  | c :: bs =>
    if b.line < c.line ∨ (b.line = c.line ∧ b.number < c.number) then b :: c :: bs
    else c :: place b bs

def escapeChar : Char → List Char
  | '\\' => ['\\', '\\']
  | '"' => ['\\', '"']
  | c => [c]

def escape (cs : List Char) : String := String.ofList (cs.flatMap escapeChar)

def field (name value : String) : String := name ++ "=\"" ++ value ++ "\""

def tuple (fields : List String) : String := "\x7b" ++ Text.joinWith "," fields ++ "\x7d"

def list (items : List String) : String := "[" ++ Text.joinWith "," items ++ "]"

def errorLine (token message : String) : String := token ++ "^error," ++ field "msg" message

def breakpointTuple (b : Breakpoint) : String :=
  "bkpt=" ++ tuple [field "number" (toString b.number), field "line" (toString b.line)]

/-- Go on to the first breakpoint at `start` or behind it, or to the end of the
program. -/
def stopFrom (start : Nat) (s : State) : State × String :=
  match s.breakpoints.find? fun b => start ≤ b.line with
  | none => ({ s with stoppedAt := none }, "*stopped," ++ field "reason" "exited-normally")
  | some b =>
    ({ s with stoppedAt := some b.line },
      Text.joinWith "," ["*stopped", field "reason" "breakpoint-hit", field "disp" "keep",
        field "bkptno" (toString b.number),
        "frame=" ++ tuple [field "func" "main", field "file" (escape s.file.toList),
          field "line" (toString b.line)],
        field "thread-id" "1"])

def run (token : String) (start : Nat) (s : State) : State × List String :=
  let r := stopFrom start s
  (r.1, [token ++ "^running", "*running," ++ field "thread-id" "all", r.2])

/-- A location as file and line: the line follows the last colon. -/
def location? (args : List Char) : Option (List Char × Nat) :=
  let back := args.reverse
  match back.dropWhile (· != ':') with
  | [] => none
  | _ :: file =>
    (Integer.word? 32 (back.takeWhile (· != ':')).reverse).map fun line => (file.reverse, line)

/-- Put a breakpoint in with the next number, unless there is none. -/
def insertBreakpoint (token : String) (args : List Char) (s : State) :
    Option (State × List String) :=
  match location? args with
  | none => some (s, [errorLine token "Bad breakpoint location"])
  | some (file, line) => (next? s.inserted).map fun number =>
    ({ s with inserted := number, breakpoints := place ⟨line, number⟩ s.breakpoints,
              file := String.ofList file },
      [token ++ "^done,bkpt=" ++ tuple [field "number" (toString number),
        field "type" "breakpoint", field "enabled" "y", field "file" (escape file),
        field "line" (toString line)]])

/-- Carry out the command `name`, which came with `token` before it, unless a sum
that it needs is no word. -/
def command (token : String) (name : List Char) (args : List Char) (s : State) :
    Option (State × List String) :=
  match String.ofList name with
  | "break-insert" => insertBreakpoint token args s
  | "break-list" =>
    some (s, [token ++ "^done,BreakpointTable=" ++ tuple
      [field "nr_rows" (toString s.breakpoints.length),
        "body=" ++ list (s.breakpoints.map breakpointTuple)]])
  | "exec-run" => some (run token 0 { s with stoppedAt := none })
  | "exec-continue" =>
    match s.stoppedAt with
    | none => some (s, [errorLine token "The program is not being run."])
    | some line => (next? line).map fun first => run token first s
  | "stack-info-frame" =>
    match s.stoppedAt with
    | none => some (s, [errorLine token "No stack."])
    | some line =>
      some (s, [token ++ "^done,frame=" ++ tuple [field "level" "0",
        field "file" (escape s.file.toList), field "line" (toString line)]])
  | "echo" => some (s, ["~\"" ++ escape args ++ "\\n\"", token ++ "^done"])
  | "gdb-exit" => some ({ s with status := .exited }, [token ++ "^exit"])
  | _ => some (s, [errorLine token ("Undefined MI command: " ++ escape name)])

/-- Answer one command line without blanks around it. -/
def answer (line : List Char) (s : State) : Option (State × List String) :=
  if line = "ping".toList then some (s, ["pong"])
  else
    let token := String.ofList (line.takeWhile Text.isDigit)
    match line.dropWhile Text.isDigit with
    | '-' :: rest =>
      command token (rest.takeWhile (· != ' '))
        (Text.trimChars ((rest.dropWhile (· != ' ')).drop 1)) s
    | rest => some (s, [errorLine token ("Undefined command: \\\"" ++ escape rest ++ "\\\"")])

def prompt : String := "(gdb)"

/-- Read one line.  Nothing is read after the command to exit, and nothing is
written about a line that the mock breaks down over. -/
def hear (line : String) (s : State) : State × List String :=
  let cs := Text.trimChars line.toList
  if s.status ≠ .reading ∨ cs = [] then (s, [])
  else
    match answer cs s with
    | none => ({ s with status := .broken }, [])
    | some (t, written) => (t, if t.status = .reading then written ++ [prompt] else written)

def hearAll (lines : List String) (s : State) : State × List String :=
  lines.foldl (fun r line => let t := hear line r.1; (t.1, r.2 ++ t.2)) (s, [])

/-- The state after the events, of which the latest is given first. -/
def stateAfter : List Event → State
  | [] => .start
  | .input text :: events => (hearAll (Debugger.inputLines text) (stateAfter events)).1
  | _ :: events => stateAfter events

/-- Whether the mock has ended, for whatever reason. -/
def hasEnded (events : List Event) : Bool := (stateAfter events).status != .reading

def greeting : List String := ["=thread-group-added," ++ field "id" "i1", prompt]

end Mock

namespace Debugger

def mock : Debugger where
  output
    | [] => Mock.greeting
    | .input text :: events => (Mock.hearAll (inputLines text) (Mock.stateAfter events)).2
    | _ => []
  ended := Mock.hasEnded
  errors _ := ""
  platform := .ofProgram Mock.hasEnded

/-- The mock with the words of its command line. -/
def mockWith (args : List String) : Debugger :=
  if args.contains "--exit-immediately" then
    (Debugger.fixed [] true).on (.ofProgram fun _ => true)
  else if args.contains "--silent" then .fixed [] false
  else mock

end Debugger
end CheckScript
