/-
Settings of a run, as a configuration file gives them.
-/
import CheckScript.Delta
import CheckScript.Toml.Document

namespace CheckScript

/-- How a debugger is reached. -/
inductive DebuggerAccess where
  | spawn (command : String)
  | connect (address : String)
deriving DecidableEq, Repr

structure Settings where
  command : Option String
  connect : Option String
  deltaCommand : Option String
  workDirectory : Option Path
  expectSeconds : Nat
  closeGraceMillis : Nat
  connectSeconds : Nat
deriving DecidableEq, Repr

namespace Settings

def default : Settings where
  command := none
  connect := none
  deltaCommand := none
  workDirectory := none
  expectSeconds := 10
  closeGraceMillis := 500
  connectSeconds := 10

def expectTimeout (s : Settings) : Duration := .ofSeconds s.expectSeconds

def closeGrace (s : Settings) : Duration := .ofMillis s.closeGraceMillis

def connectTimeout (s : Settings) : Duration := .ofSeconds s.connectSeconds

/- Reading.  Names that mean nothing are left alone. -/

def text (name : String) : Option Toml.Node → Except String (Option String)
  | none => .ok none
  | some (.string s) => .ok (some s)
  | some _ => .error s!"'{name}' is not a string"

def number (name : String) (otherwise : Nat) : Option Toml.Node → Except String Nat
  | none => .ok otherwise
  | some (.integer n) => if 0 ≤ n then .ok n.toNat else .error s!"'{name}' is negative"
  | some _ => .error s!"'{name}' is not an integer"

/-- The member with this position and name.  Members may also be listed in their
order, without their names. -/
def member (sect : Toml.Node) (position : Nat) (name : String) : Option Toml.Node :=
  match sect with
  | .table _ entries => Toml.lookup name entries
  | .array items => items[position]?
  | .tables items => items[position]?.map (.table .header)
  | _ => none

/-- Whether a section can have members.  A list must have at least `least` of
them, and a date or time has none. -/
def isSection (least : Nat) : Toml.Node → Bool
  | .table _ _ => true
  | .array items => least ≤ items.length
  | .tables items => least ≤ items.length
  | .moment => true
  | _ => false

/-- A section of the file; an empty one if there is none. -/
def sectionOf (entries : Toml.Entries) (name : String) (least : Nat) :
    Except String Toml.Node :=
  match Toml.lookup name entries with
  | none => .ok (.table .implied [])
  | some node => if isSection least node then .ok node else .error s!"'{name}' is not a table"

def ofEntries (entries : Toml.Entries) : Except String Settings := do
  let debugger ← sectionOf entries "debugger" 2
  let timeouts ← sectionOf entries "timeouts" 0
  let delta ← sectionOf entries "delta" 2
  let command ← text "command" (member debugger 0 "command")
  let connect ← text "connect" (member debugger 1 "connect")
  let expectSeconds ← number "expect_secs" default.expectSeconds (member timeouts 0 "expect_secs")
  let closeGraceMillis ←
    number "close_grace_ms" default.closeGraceMillis (member timeouts 1 "close_grace_ms")
  let connectSeconds ←
    number "connect_secs" default.connectSeconds (member timeouts 2 "connect_secs")
  let deltaCommand ← text "command" (member delta 0 "command")
  let workDirectory ← text "work_dir" (member delta 1 "work_dir")
  return { command, connect, deltaCommand, workDirectory := workDirectory.map Path.mk,
           expectSeconds, closeGraceMillis, connectSeconds }

/-- The settings in the text of a configuration file. -/
def read (source : String) : Except Failure Settings :=
  match Toml.read source with
  | .error fault => .error (.configurationText fault.message)
  | .ok entries => (ofEntries entries).mapError .configurationText

def load (f : Files) (p : Path) : Except Failure Settings :=
  match f.readText p with
  | .error fault => .error (.unreadable p fault)
  | .ok source => read source

/-- The debugger to use: an address wins over a command.  Blank ones count as
missing. -/
def target (s : Settings) : Except Failure DebuggerAccess :=
  match s.connect.filter (! Text.isBlankText ·), s.command.filter (! Text.isBlankText ·) with
  | some address, _ => .ok (.connect (Text.trim address))
  | none, some command => .ok (.spawn (Text.trim command))
  | none, none => .error (.configuration .noDebugger)

/-- The generator of artifacts, if there is a command for it.  It works in
`directory` unless the settings name another. -/
def generator (s : Settings) (directory : Path) : Option DeltaCommand :=
  (s.deltaCommand.filter (! Text.isBlankText ·)).map fun command =>
    { command := Text.trim command, workDirectory := s.workDirectory.getD directory }

end Settings
end CheckScript
