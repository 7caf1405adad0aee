import Sidecar.Batch
import Sidecar.Bytes
import Sidecar.Codec
import Sidecar.Codec.Consume
import Sidecar.Codec.Split
import Sidecar.CommandLine.Argument
import Sidecar.CommandLine.Command
import Sidecar.CommandLine.Run
import Sidecar.Config
import Sidecar.Config.Field
import Sidecar.Config.File
import Sidecar.Config.Json
import Sidecar.Config.Program
import Sidecar.Config.ReadFault
import Sidecar.Config.Toml
import Sidecar.Duration
import Sidecar.Failure
import Sidecar.Files.Path
import Sidecar.Files.Tree
import Sidecar.Json.Document
import Sidecar.Json.Lexeme
import Sidecar.Json.Number
import Sidecar.Main
import Sidecar.Session.Call
import Sidecar.Session.State
import Sidecar.Shell.Arithmetic
import Sidecar.Shell.Expansion
import Sidecar.Shell.Parser
import Sidecar.Shell.Pattern
import Sidecar.Shell.Printf
import Sidecar.Shell.Syntax
import Sidecar.Stage
import Sidecar.Stage.Dialogue
import Sidecar.Stage.Pump
import Sidecar.Stage.Shared
import Sidecar.Stage.Tally
import Sidecar.Stage.Workshop
import Sidecar.Stream.Outlet
import Sidecar.Stream.Sink
import Sidecar.Stream.Source
import Sidecar.Stream.Tokenizer
import Sidecar.Supervisor.Create
import Sidecar.Supervisor.State
import Sidecar.Supervisor.Step
import Sidecar.Table
import Sidecar.Text.Blank
import Sidecar.Text.Decimal
import Sidecar.Text.Hexadecimal
import Sidecar.Text.Quoted
import Sidecar.Text.Shapeless
import Sidecar.Text.Shortest
import Sidecar.Text.Utf8
import Sidecar.Toml.Document
import Sidecar.Toml.Node
import Sidecar.Toml.Scalar
import Sidecar.Toml.Statement
import Sidecar.Toml.Text
import Sidecar.World.Builtin
import Sidecar.World.Condition
import Sidecar.World.Kernel
import Sidecar.World.Load
import Sidecar.World.Operand
import Sidecar.World.Process
import Sidecar.World.Redirect
import Sidecar.World.Script
import Sidecar.World.Tool
import Sidecar.World.Turn
import Sidecar.Proofs.Codec.Prefix
import Sidecar.Proofs.Stream.Chunking
import Sidecar.Proofs.Codec.Encode
import Sidecar.Proofs.Stream.RoundTrip
import Sidecar.Proofs.Supervisor.Duty
import Sidecar.Proofs.Supervisor.Moves
import Sidecar.Proofs.Supervisor.Run
import Sidecar.Proofs.Supervisor.Custody
import Sidecar.Proofs.Supervisor.Positions
import Sidecar.Proofs.Supervisor.Shutdown
import Sidecar.Proofs.Supervisor.Closing
import Sidecar.Proofs.Supervisor.Lifecycle
import Sidecar.Proofs.Supervisor.Replacements
import Sidecar.Proofs.Stream.Outflow
import Sidecar.Proofs.Supervisor.History
import Sidecar.Proofs.Supervisor.Exchange
import Sidecar.Proofs.Stream.Frames
import Sidecar.Proofs.Supervisor.Pairing
import Sidecar.Proofs.Supervisor.Overlap
import Sidecar.Proofs.Supervisor.Responses
import Sidecar.Proofs.Stage.Selection
import Sidecar.Proofs.CommandLine.Batching
import Sidecar.Proofs.Stage.InTurn
import Sidecar.Proofs.Stage.Returning
import Sidecar.Proofs.Stream.Buffer
import Sidecar.Proofs.Stream.Truncation
import Sidecar.Proofs.Supervisor.Reaping
import Sidecar.Proofs.Supervisor.Reaction
import Sidecar.Proofs.Supervisor.Kills
import Sidecar.Proofs.Stage.Visits
import Sidecar.Proofs.Stage.Counting
import Sidecar.Proofs.CommandLine.Messages
import Sidecar.Proofs.Supervisor.Notice
import Sidecar.Proofs.Supervisor.Teardown
import Sidecar.Proofs.Codec.Netstring
import Sidecar.Proofs.Json.Reading
import Sidecar.Proofs.Config.Reading
import Sidecar.Proofs.CommandLine.Checking
import Sidecar.Proofs.Supervisor.Recovery
import Sidecar.Proofs.Stream.Writing
import Sidecar.Proofs.Stage.Lines
import Sidecar.Proofs.Stage.Places
import Sidecar.Proofs.Supervisor.Starts
import Sidecar.Proofs.Supervisor.Undone
import Sidecar.Proofs.Stream.Lines
import Sidecar.Proofs.Codec.Canonical
import Sidecar.Proofs.Config.Locating
import Sidecar.Proofs.Config.Windows
import Sidecar.Proofs.Stage.Indices
import Sidecar.Proofs.Stream.Progress
import Sidecar.Proofs.Stream.Growth
import Sidecar.Proofs.Session.Deadlines
import Sidecar.Proofs.CommandLine.Limits
