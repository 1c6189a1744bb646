/-
Signals by number and name.
-/

namespace CheckScript
namespace Signal

/-- The names of the first signals, from number one on. -/
def names : List String :=
  ["HUP", "INT", "QUIT", "ILL", "TRAP", "ABRT", "BUS", "FPE", "KILL", "USR1", "SEGV", "USR2",
    "PIPE", "ALRM", "TERM", "STKFLT", "CHLD", "CONT", "STOP", "TSTP", "TTIN", "TTOU", "URG", "XCPU",
    "XFSZ", "VTALRM", "PROF", "WINCH", "IO", "PWR", "SYS"]

def name? (n : Nat) : Option String := if n = 0 then none else names[n - 1]?

/-- The largest number. -/
def last : Nat := 64

/-- The signals that a process takes no notice of. -/
def isIgnored (n : Nat) : Bool := [17, 18, 23, 28].contains n

/-- The signals that stop a process until it is told to go on. -/
def isStop (n : Nat) : Bool := [19, 20, 21, 22].contains n

/-- What a shell says when a command has been ended by a signal. -/
def description (n : Nat) : String :=
  let texts := ["Hangup", "Interrupt", "Quit", "Illegal instruction", "Trace/breakpoint trap",
    "Aborted", "Bus error", "Floating point exception", "Killed", "User defined signal 1",
    "Segmentation fault", "User defined signal 2", "Broken pipe", "Alarm clock", "Terminated",
    "Stack fault", "Child exited", "Continued", "Stopped (signal)", "Stopped",
    "Stopped (tty input)", "Stopped (tty output)", "Urgent I/O condition",
    "CPU time limit exceeded", "File size limit exceeded", "Virtual timer expired",
    "Profiling timer expired", "Window changed", "I/O possible", "Power failure", "Bad system call"]
  match (if n = 0 then none else texts[n - 1]?) with
  | some t => t
  | none => if 34 ≤ n then s!"Real-time signal {n - 34}" else s!"Unknown signal {n}"

end Signal
end CheckScript
