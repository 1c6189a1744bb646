/-
The connection between a script and its debugger.  Sending does not wait for
an answer; waiting looks for a line that begins as wanted and drops the lines
before it.
-/
import CheckScript.Debugger.Behaviour
import CheckScript.Failure
import CheckScript.Record.Mi
import CheckScript.Transcript

namespace CheckScript

/-- `arriving` holds the lines that the debugger has written and nobody has
seen yet, `queue` those that are in the transcript and wait to be consumed.
`unanswered` holds the tokens of commands without an answer. -/
structure Connection where
  debugger : Debugger
  format : RecordFormat
  events : List Event
  arriving : List String
  outputEnded : Bool
  queue : List String
  unanswered : List Nat
  transcript : Transcript
  closed : Bool

namespace Connection

def start (debugger : Debugger) (format : RecordFormat) (transcript : Transcript) : Connection where
  debugger := debugger
  format := format
  events := []
  arriving := debugger.output []
  outputEnded := debugger.ended []
  queue := []
  unanswered := []
  transcript := transcript
  closed := false

def log (c : Connection) (e : Entry) : Connection := { c with transcript := c.transcript.push e }

def note (c : Connection) (text : String) : Connection := c.log (.note text)

/-- Let an event happen to the debugger.  Once its output has ended it writes
nothing more. -/
def react (c : Connection) (e : Event) : Connection :=
  let events := e :: c.events
  if c.outputEnded then { c with events := events }
  else
    { c with
      events := events
      arriving := c.arriving ++ c.debugger.output events
      outputEnded := c.debugger.ended events }

/-- Take over all lines that the debugger has written. -/
def collect (c : Connection) : Connection :=
  { c with
    arriving := []
    queue := c.queue ++ c.arriving
    transcript := c.arriving.foldl (fun t line => t.push (.received line)) c.transcript }

/-- The token in front of a command. -/
def tokenOfCommand (text : String) : Option Nat := Mi.tokenOf (Mi.splitDigits text.toList).1

/-- The token that a result line answers. -/
def tokenOfAnswer (line : String) : Option Nat :=
  let s := Mi.splitDigits line.toList
  if s.2.head? = some '^' then Mi.tokenOf s.1 else none

def forget (token : Option Nat) (unanswered : List Nat) : List Nat :=
  match token with
  | none => unanswered
  | some t => unanswered.filter (· != t)

def reuseWarning (token : Nat) : String := s!"warning: token {token} reused while in flight"

/-- Note that the command with this token is on its way. -/
def launch (c : Connection) (token : Option Nat) : Connection :=
  match token with
  | none => c
  | some t =>
    if t ∈ c.unanswered then c.note (reuseWarning t)
    else { c with unanswered := t :: c.unanswered }

/-- What comes of writing a text to the input of the debugger. -/
def write (c : Connection) (text : String) : Except Failure Unit × Event :=
  match c.debugger.platform.refusal c.events text with
  | none => (.ok (), .input text)
  | some fault => (.error (.system fault), .lost text)

/-- Write one line to the debugger.  It is in the transcript, with its token on
its way, before it is written. -/
def send (c : Connection) (text : String) : Except Failure Unit × Connection :=
  if c.closed then (.error .inputClosed, c)
  else
    let w := c.write text
    (w.1, ((c.launch (tokenOfCommand text)).log (.sent text)).react w.2)

/-- What consuming lines leaves behind. -/
structure Consumed where
  result : Except Failure Record
  queue : List String
  unanswered : List Nat

/-- Read the matched line.  Its record answers its token once more, whatever
its kind. -/
def matched (format : RecordFormat) (line : String) (queue : List String) (unanswered : List Nat) :
    Consumed :=
  match format.read line with
  | .error fault => ⟨.error (.record fault), queue, unanswered⟩
  | .ok r => ⟨.ok r, queue, forget r.token unanswered⟩

/-- Consume lines up to the first that begins as wanted.  A result line answers
its token whether it is wanted or not. -/
def consume (format : RecordFormat) (wanted : String) (missing : Failure) (unanswered : List Nat) :
    List String → Consumed
  | [] => ⟨.error missing, [], unanswered⟩
  | line :: queue =>
    let unanswered := forget (tokenOfAnswer line) unanswered
    if Text.startsWith line wanted then matched format line queue unanswered
    else consume format wanted missing unanswered queue

/-- What the clock reads. -/
def now (c : Connection) : Duration := c.debugger.platform.clock c.events

/-- The failure of waiting for a line that does not come. -/
def missing (c : Connection) (wanted : String) (timeout elapsed : Duration) : Failure :=
  if c.outputEnded then .outputClosed wanted elapsed else .timedOut wanted timeout

/-- Wait for a line that begins as wanted, and read it. -/
def await (c : Connection) (wanted : String) (timeout : Duration) :
    Except Failure Record × Connection :=
  let started := c.now
  let c := (c.react .wait).collect
  let missing := c.missing wanted timeout (c.now.since started)
  let r := consume c.format wanted missing c.unanswered c.queue
  (r.result, { c with queue := r.queue, unanswered := r.unanswered })

/-- Whether the clock can tell the time at which a wait that begins now is given
up. -/
def hasDeadline (c : Connection) (timeout : Duration) : Bool := (c.now.add timeout).isTellable

/-- Wait for a line as long as told.  The deadline is computed first, and if there
is none, the program breaks down over that, with neither a record nor a failure. -/
def expect (c : Connection) (wanted : String) (timeout : Duration) :
    Option (Except Failure Record) × Connection :=
  if c.hasDeadline timeout then
    let r := c.await wanted timeout
    (some r.1, r.2)
  else (none, c)

/-- End the input of the debugger and take over what it still writes.  Lines
that nobody has consumed can be consumed afterwards. -/
def close (c : Connection) : Connection :=
  if c.closed then c
  else { (c.react .inputEnd).collect with closed := true, outputEnded := true }

/-- What the debugger has written about errors. -/
def errors (c : Connection) : String := c.debugger.errors c.events

end Connection
end CheckScript
