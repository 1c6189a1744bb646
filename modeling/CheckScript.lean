import CheckScript.CommandLine.Arguments
import CheckScript.CommandLine.Help
import CheckScript.CommandLine.Host
import CheckScript.CommandLine.Perform
import CheckScript.Connection
import CheckScript.Debugger.Behaviour
import CheckScript.Debugger.Mock
import CheckScript.Delta
import CheckScript.Duration
import CheckScript.Failure
import CheckScript.Files.Fault
import CheckScript.Files.Tree
import CheckScript.Integer
import CheckScript.Json
import CheckScript.Main
import CheckScript.Outside.Debugger
import CheckScript.Outside.Shell.Arithmetic
import CheckScript.Outside.Shell.Builtin.Basic
import CheckScript.Outside.Shell.Builtin.Condition
import CheckScript.Outside.Shell.Builtin.Control
import CheckScript.Outside.Shell.Builtin.Output
import CheckScript.Outside.Shell.Builtin.Printing
import CheckScript.Outside.Shell.Builtin.Variables
import CheckScript.Outside.Shell.Evaluate
import CheckScript.Outside.Shell.Expand
import CheckScript.Outside.Shell.External
import CheckScript.Outside.Shell.Launch
import CheckScript.Outside.Shell.Machine
import CheckScript.Outside.Shell.Parser.Basic
import CheckScript.Outside.Shell.Parser.Command
import CheckScript.Outside.Shell.Parser.Word
import CheckScript.Outside.Shell.Pattern
import CheckScript.Outside.Shell.Process
import CheckScript.Outside.Shell.Program.Basic
import CheckScript.Outside.Shell.Program.Calculation
import CheckScript.Outside.Shell.Program.Comparison
import CheckScript.Outside.Shell.Program.Contents
import CheckScript.Outside.Shell.Program.Digest
import CheckScript.Outside.Shell.Program.Edit.Run
import CheckScript.Outside.Shell.Program.Edit.Script
import CheckScript.Outside.Shell.Program.Encoding
import CheckScript.Outside.Shell.Program.Fields
import CheckScript.Outside.Shell.Program.FileWork
import CheckScript.Outside.Shell.Program.Grep
import CheckScript.Outside.Shell.Program.Names
import CheckScript.Outside.Shell.Program.Pause
import CheckScript.Outside.Shell.Program.Quoting
import CheckScript.Outside.Shell.Program.Report.Cell
import CheckScript.Outside.Shell.Program.Report.Read
import CheckScript.Outside.Shell.Program.Report.Run
import CheckScript.Outside.Shell.Program.Report.Syntax
import CheckScript.Outside.Shell.Program.Report.Token
import CheckScript.Outside.Shell.Program.Search
import CheckScript.Outside.Shell.Program.Text
import CheckScript.Outside.Shell.Programs
import CheckScript.Outside.Shell.Redirect
import CheckScript.Outside.Shell.Regex
import CheckScript.Outside.Shell.Standard
import CheckScript.Outside.Shell.Syntax
import CheckScript.Path
import CheckScript.Proofs.Connection.Closing
import CheckScript.Proofs.Connection.Consumption
import CheckScript.Proofs.Connection.Framing
import CheckScript.Proofs.Connection.History
import CheckScript.Proofs.Connection.Noise
import CheckScript.Proofs.Connection.Operation
import CheckScript.Proofs.Connection.Schedule
import CheckScript.Proofs.Connection.Unanswered
import CheckScript.Proofs.Debugger.Addition
import CheckScript.Proofs.Debugger.Agreement
import CheckScript.Proofs.Debugger.Answers
import CheckScript.Proofs.Debugger.Stations
import CheckScript.Proofs.Debugger.Wire
import CheckScript.Proofs.Decision
import CheckScript.Proofs.Delta.Containment
import CheckScript.Proofs.Delta.Freshness
import CheckScript.Proofs.Delta.Prepare
import CheckScript.Proofs.Files.Tree
import CheckScript.Proofs.Files.Walk
import CheckScript.Proofs.Path
import CheckScript.Proofs.Record.Cursor
import CheckScript.Proofs.Record.Display
import CheckScript.Proofs.Record.Grammar
import CheckScript.Proofs.Record.Leading
import CheckScript.Proofs.Record.Line
import CheckScript.Proofs.Record.Token
import CheckScript.Proofs.Record.Written
import CheckScript.Proofs.Script.Access
import CheckScript.Proofs.Script.Alarm
import CheckScript.Proofs.Script.Arrival
import CheckScript.Proofs.Script.Blame
import CheckScript.Proofs.Script.Chain
import CheckScript.Proofs.Script.Closed
import CheckScript.Proofs.Script.Compile
import CheckScript.Proofs.Script.Completeness
import CheckScript.Proofs.Script.Counter
import CheckScript.Proofs.Script.Derivation
import CheckScript.Proofs.Script.Diagnosis
import CheckScript.Proofs.Script.Dynamic
import CheckScript.Proofs.Script.Effect
import CheckScript.Proofs.Script.Exactness
import CheckScript.Proofs.Script.FailStop
import CheckScript.Proofs.Script.Grammar
import CheckScript.Proofs.Script.Height
import CheckScript.Proofs.Script.Integers
import CheckScript.Proofs.Script.Invariant
import CheckScript.Proofs.Script.Lexeme
import CheckScript.Proofs.Script.LineEnds
import CheckScript.Proofs.Script.Locality
import CheckScript.Proofs.Script.Nesting
import CheckScript.Proofs.Script.Noise
import CheckScript.Proofs.Script.Occurrence
import CheckScript.Proofs.Script.Origin
import CheckScript.Proofs.Script.Padding
import CheckScript.Proofs.Script.Place
import CheckScript.Proofs.Script.Portions
import CheckScript.Proofs.Script.Progress
import CheckScript.Proofs.Script.Range
import CheckScript.Proofs.Script.Recovery
import CheckScript.Proofs.Script.Resolution
import CheckScript.Proofs.Script.Room
import CheckScript.Proofs.Script.RoundTrip
import CheckScript.Proofs.Script.Scopes
import CheckScript.Proofs.Script.Soundness
import CheckScript.Proofs.Script.Step
import CheckScript.Proofs.Script.Story
import CheckScript.Proofs.Script.Strategy
import CheckScript.Proofs.Script.Template
import CheckScript.Proofs.Script.Triple
import CheckScript.Proofs.Source.Alignment
import CheckScript.Proofs.Source.Balance
import CheckScript.Proofs.Source.Brackets
import CheckScript.Proofs.Source.Collection
import CheckScript.Proofs.Source.Cursor
import CheckScript.Proofs.Source.Extent
import CheckScript.Proofs.Source.LineEnds
import CheckScript.Proofs.Source.Lockstep
import CheckScript.Proofs.Source.Parts
import CheckScript.Proofs.Source.Pieces
import CheckScript.Proofs.Source.Placement
import CheckScript.Proofs.Source.Provenance
import CheckScript.Proofs.Source.Reading
import CheckScript.Proofs.Source.Tags
import CheckScript.Proofs.TestCase.Discovery
import CheckScript.Proofs.TestCase.Teardown
import CheckScript.Proofs.Text.Index
import CheckScript.Proofs.Text.Lines
import CheckScript.Record.Basic
import CheckScript.Record.Find
import CheckScript.Record.Json
import CheckScript.Record.Mi
import CheckScript.Script.Builtin
import CheckScript.Script.Compile
import CheckScript.Script.Diagnostic
import CheckScript.Script.Fault
import CheckScript.Script.Interpreter
import CheckScript.Script.Operation
import CheckScript.Script.Parser.Basic
import CheckScript.Script.Parser.Expression
import CheckScript.Script.Parser.Statement
import CheckScript.Script.Position
import CheckScript.Script.Resolve
import CheckScript.Script.Session
import CheckScript.Script.Syntax
import CheckScript.Script.Template
import CheckScript.Script.Token
import CheckScript.Script.Tokenize
import CheckScript.Script.Value
import CheckScript.Settings
import CheckScript.Shell
import CheckScript.Signal
import CheckScript.Source.Comment
import CheckScript.Source.Fault
import CheckScript.Source.Scan
import CheckScript.Source.Tags
import CheckScript.TestCase.Basic
import CheckScript.TestCase.Execution
import CheckScript.TestReport
import CheckScript.TestSource
import CheckScript.Text.Blank
import CheckScript.Text.Bytes
import CheckScript.Text.Letter
import CheckScript.Text.Lines
import CheckScript.Text.Quoted
import CheckScript.Text.Range
import CheckScript.Toml.Document
import CheckScript.Toml.Literal
import CheckScript.Toml.Moment
import CheckScript.Toml.Table
import CheckScript.Transcript
