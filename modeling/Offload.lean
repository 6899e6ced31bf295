import Offload.Text.Blank
import Offload.Text.Hex
import Offload.Text.LowerCase
import Offload.Text.Terminal
import Offload.Json.Printer
import Offload.Json.Reader
import Offload.LoggedLine
import Offload.Stage
import Offload.SlotKind
import Offload.Environment
import Offload.ExitStatus
import Offload.Message.Scheduler
import Offload.Message.Worker
import Offload.Message.Client
import Offload.Config.Variables
import Offload.LogLevel
import Offload.FileTree.Operations
import Offload.Slots
import Offload.Watchdog
import Offload.Multiplexer
import Offload.Connection
import Offload.Conversation.Scheduler
import Offload.Conversation.Worker
import Offload.Digest.Blake3
import Offload.Cache.Directory
import Offload.Compiler.Lookup
import Offload.Compiler.Hash
import Offload.Scenario.Channel
import Offload.Scenario.Recorder
import Offload.Scenario.Feed
import Offload.Config.Client
import Offload.Logging
import Offload.Flags
import Offload.Invocation
import Offload.Compiler.Program
import Offload.Scenario.Stub
import Offload.Scenario.Description
import Offload.Scenario.Report
import Offload.Compile.Policy
import Offload.Scenario.World
import Offload.Scenario.Compile
import Offload.Url
import Offload.LogFilter
import Offload.Client.Session
import Offload.Scenario.Machine
import Offload.Main
import Offload.Proofs.Path
import Offload.Proofs.Talk
import Offload.Proofs.Waiting
import Offload.Proofs.Conversation.Ending
import Offload.Proofs.Compile.Moves
import Offload.Proofs.Compile.Steps
import Offload.Proofs.Compile.Guard
import Offload.Proofs.Compile.Progress
import Offload.Proofs.Compile.Leads
import Offload.Proofs.Compile.Closing
import Offload.Proofs.Compile.Verdict
import Offload.Proofs.Compile.Ending
import Offload.Proofs.Compile.SlotUse
import Offload.Proofs.Slots.Check
import Offload.Proofs.Slots.InProcess
import Offload.Proofs.Slots.LateReturns
import Offload.Proofs.Worker.Run
import Offload.Proofs.Worker.Reassembly
import Offload.Proofs.Json.Spelling
import Offload.Proofs.Json.RoundTrip
import Offload.Proofs.Message.RoundTrip
import Offload.Proofs.Worker.Invariant
import Offload.Proofs.Worker.Upload
import Offload.Proofs.Invocation.Tokens
import Offload.Proofs.Invocation.Preprocessing
import Offload.Proofs.Invocation.Remotable
import Offload.Proofs.Invocation.ObjectFile
import Offload.Proofs.Compile.Output
import Offload.Proofs.Compile.Aside
import Offload.Proofs.Compile.Stages
import Offload.Proofs.Worker.Wire
import Offload.Proofs.Compile.Surroundings
import Offload.Proofs.Compile.Translation
import Offload.Proofs.Compile.Witnessed
import Offload.Proofs.Compile.Sent
import Offload.Proofs.Scheduler.Decision
import Offload.Proofs.Watchdog.Firing
import Offload.Proofs.Connection.Translation
import Offload.Proofs.Connection.Record
import Offload.Proofs.Connection.Books
import Offload.Proofs.Connection.Outbound
import Offload.Proofs.Connection.Inbound
import Offload.Proofs.Connection.Answers
import Offload.Proofs.Slots.Sharing
import Offload.Proofs.Slots.Conservation
import Offload.Proofs.Compiler.Lookup
import Offload.Proofs.Compile.Files
import Offload.Proofs.Compile.Stalling
import Offload.Proofs.Compile.Once
import Offload.Proofs.Json.Order
import Offload.Proofs.Message.Grammar
import Offload.Proofs.Message.Scheduler
import Offload.Proofs.Message.Worker
import Offload.Proofs.Message.Client
import Offload.Proofs.LoggedLine
import Offload.Proofs.Config.Flattening
import Offload.Proofs.Worker.Flushed
import Offload.Proofs.Compile.Consistent
import Offload.Proofs.Dispatch
import Offload.Proofs.FileTree.Walk
import Offload.Proofs.FileTree.Entries
import Offload.Proofs.FileTree.Changes
import Offload.Proofs.FileTree.Directories
import Offload.Proofs.FileTree.Spared
import Offload.Proofs.FileTree.Replacing
import Offload.Proofs.Cache.Directory
import Offload.Proofs.Cache.Format
import Offload.Proofs.Cache.Persistence
import Offload.Proofs.Compiler.Hash
import Offload.Proofs.Watchdog.Detection
import Offload.Proofs.Flags
import Offload.Proofs.Logging
import Offload.Proofs.Config.Endpoint
import Offload.Proofs.ShellWords
