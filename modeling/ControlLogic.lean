import ControlLogic.Agenda
import ControlLogic.Command.Arguments
import ControlLogic.Command.Basic
import ControlLogic.Command.Execute
import ControlLogic.Document
import ControlLogic.FileSystem.Basic
import ControlLogic.FileSystem.Path
import ControlLogic.Format
import ControlLogic.Gather
import ControlLogic.IdTable
import ControlLogic.Library.Basic
import ControlLogic.Library.Calendar
import ControlLogic.Library.Console
import ControlLogic.Library.Gathering
import ControlLogic.Library.Math
import ControlLogic.Library.Table
import ControlLogic.Library.Text
import ControlLogic.Machine.Basic
import ControlLogic.Machine.Call
import ControlLogic.Machine.Config
import ControlLogic.Machine.Eval
import ControlLogic.Machine.Fault
import ControlLogic.Machine.Files
import ControlLogic.Machine.Host
import ControlLogic.Machine.Input
import ControlLogic.Machine.Load
import ControlLogic.Machine.Operator
import ControlLogic.Machine.Place
import ControlLogic.Machine.Sockets
import ControlLogic.Machine.Statement
import ControlLogic.Machine.Store
import ControlLogic.Machine.Task
import ControlLogic.Machine.Timing
import ControlLogic.Main
import ControlLogic.Network.Basic
import ControlLogic.Network.Device
import ControlLogic.Number.Numeral
import ControlLogic.Number.Word
import ControlLogic.Program.Basic
import ControlLogic.Program.Document
import ControlLogic.Program.Parser.Basic
import ControlLogic.Program.Parser.Declaration
import ControlLogic.Program.Parser.Expr
import ControlLogic.Program.Parser.Stmt
import ControlLogic.Program.Parser.Unit
import ControlLogic.Proofs.FileSystem.Ancestors
import ControlLogic.Proofs.FileSystem.Archive
import ControlLogic.Proofs.FileSystem.Chunks
import ControlLogic.Proofs.FileSystem.Path
import ControlLogic.Proofs.FileSystem.Requests
import ControlLogic.Proofs.FileSystem.Search
import ControlLogic.Proofs.FileSystem.Tree
import ControlLogic.Proofs.FileSystem.Wildcard
import ControlLogic.Proofs.Format.Decimal
import ControlLogic.Proofs.Format.Pieces
import ControlLogic.Proofs.IdTable
import ControlLogic.Proofs.Library.Gathering
import ControlLogic.Proofs.Library.Searching
import ControlLogic.Proofs.Library.Table
import ControlLogic.Proofs.Machine.Access
import ControlLogic.Proofs.Machine.Act
import ControlLogic.Proofs.Machine.Background
import ControlLogic.Proofs.Machine.Balance
import ControlLogic.Proofs.Machine.Behaving
import ControlLogic.Proofs.Machine.Blame
import ControlLogic.Proofs.Machine.Calling
import ControlLogic.Proofs.Machine.Chronicle
import ControlLogic.Proofs.Machine.Clock
import ControlLogic.Proofs.Machine.ClockRange
import ControlLogic.Proofs.Machine.Completion
import ControlLogic.Proofs.Machine.Congruence
import ControlLogic.Proofs.Machine.Connection
import ControlLogic.Proofs.Machine.Counting
import ControlLogic.Proofs.Machine.CountingLoop
import ControlLogic.Proofs.Machine.Coverage
import ControlLogic.Proofs.Machine.Depth
import ControlLogic.Proofs.Machine.Dispatch
import ControlLogic.Proofs.Machine.FileContents
import ControlLogic.Proofs.Machine.FrameBound
import ControlLogic.Proofs.Machine.GivingBack
import ControlLogic.Proofs.Machine.Heedless
import ControlLogic.Proofs.Machine.Hosting
import ControlLogic.Proofs.Machine.IdleCall
import ControlLogic.Proofs.Machine.Inputs
import ControlLogic.Proofs.Machine.Intake
import ControlLogic.Proofs.Machine.Isolation
import ControlLogic.Proofs.Machine.LastIndex
import ControlLogic.Proofs.Machine.Lasting
import ControlLogic.Proofs.Machine.Mail
import ControlLogic.Proofs.Machine.Moment
import ControlLogic.Proofs.Machine.Others
import ControlLogic.Proofs.Machine.Parameters
import ControlLogic.Proofs.Machine.Passage
import ControlLogic.Proofs.Machine.Past
import ControlLogic.Proofs.Machine.Pulses
import ControlLogic.Proofs.Machine.Pumping
import ControlLogic.Proofs.Machine.Reload
import ControlLogic.Proofs.Machine.Renewal
import ControlLogic.Proofs.Machine.Replies
import ControlLogic.Proofs.Machine.Selection
import ControlLogic.Proofs.Machine.Sessions
import ControlLogic.Proofs.Machine.Shadowing
import ControlLogic.Proofs.Machine.Shifting
import ControlLogic.Proofs.Machine.Spending
import ControlLogic.Proofs.Machine.Taking
import ControlLogic.Proofs.Machine.Termination
import ControlLogic.Proofs.Machine.Timeline
import ControlLogic.Proofs.Machine.Trace
import ControlLogic.Proofs.Machine.Typing
import ControlLogic.Proofs.Machine.ValueResult
import ControlLogic.Proofs.Machine.WaitRecord
import ControlLogic.Proofs.Machine.Waits
import ControlLogic.Proofs.Network.Sockets
import ControlLogic.Proofs.Network.Traffic
import ControlLogic.Proofs.Program.Alike
import ControlLogic.Proofs.Program.CallStmt
import ControlLogic.Proofs.Program.EveryCall
import ControlLogic.Proofs.Program.EveryExpr
import ControlLogic.Proofs.Program.ExprReading
import ControlLogic.Proofs.Program.ExprRoundTrip
import ControlLogic.Proofs.Program.ExprText
import ControlLogic.Proofs.Program.Folding
import ControlLogic.Proofs.Program.FunctionBody
import ControlLogic.Proofs.Program.Lookahead
import ControlLogic.Proofs.Program.Parts
import ControlLogic.Proofs.Program.Progress
import ControlLogic.Proofs.Program.Reading
import ControlLogic.Proofs.Program.Recovery
import ControlLogic.Proofs.Program.Refusal
import ControlLogic.Proofs.Program.Shape
import ControlLogic.Proofs.Program.StmtAlike
import ControlLogic.Proofs.Program.StmtLookahead
import ControlLogic.Proofs.Program.StmtProgress
import ControlLogic.Proofs.Program.StmtReading
import ControlLogic.Proofs.Program.StmtRoundTrip
import ControlLogic.Proofs.Program.StmtText
import ControlLogic.Proofs.Program.UnitAlike
import ControlLogic.Proofs.Program.UnitProgress
import ControlLogic.Proofs.Program.UnitReading
import ControlLogic.Proofs.Registers
import ControlLogic.Proofs.Schedule.Deadlines
import ControlLogic.Proofs.Schedule.History
import ControlLogic.Proofs.Schedule.Renumbering
import ControlLogic.Proofs.Schedule.Roster
import ControlLogic.Proofs.Scope
import ControlLogic.Proofs.Slot.Key
import ControlLogic.Proofs.Slot.Reading
import ControlLogic.Proofs.Source.Blocks
import ControlLogic.Proofs.Source.Constants
import ControlLogic.Proofs.Source.Places
import ControlLogic.Proofs.Text.Lowercase
import ControlLogic.Proofs.Text.Regex
import ControlLogic.Proofs.Text.Search
import ControlLogic.Proofs.Text.Upper
import ControlLogic.Proofs.Token.Case
import ControlLogic.Proofs.Token.Lookup
import ControlLogic.Proofs.Token.Quoting
import ControlLogic.Proofs.Token.Respacing
import ControlLogic.Proofs.Token.Spelling
import ControlLogic.Proofs.Token.TextLiteral
import ControlLogic.Proofs.Token.Tiling
import ControlLogic.Scenario
import ControlLogic.Schedule
import ControlLogic.Scope
import ControlLogic.Signal
import ControlLogic.Slot.Basic
import ControlLogic.Slot.Key
import ControlLogic.Source.Conditional
import ControlLogic.Stimulus
import ControlLogic.Text.Ascii
import ControlLogic.Text.Blank
import ControlLogic.Text.Bytes
import ControlLogic.Text.Lowercase
import ControlLogic.Text.Quoted
import ControlLogic.Text.Regex
import ControlLogic.Text.Search
import ControlLogic.Token.Basic
import ControlLogic.Token.Literal
import ControlLogic.Token.Scan
import ControlLogic.Toml.Basic
import ControlLogic.Toml.Reader
import ControlLogic.Toml.Scalar
import ControlLogic.Transcript
import ControlLogic.Value
import ControlLogic.Vocabulary
