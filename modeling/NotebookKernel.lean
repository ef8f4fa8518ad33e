import NotebookKernel.Address
import NotebookKernel.Cell
import NotebookKernel.Config
import NotebookKernel.ConnectionFile
import NotebookKernel.Decimal.Binary64
import NotebookKernel.Decimal.Shortest
import NotebookKernel.Digest.Hmac
import NotebookKernel.Digest.Sha256
import NotebookKernel.Endpoint
import NotebookKernel.Executable
import NotebookKernel.Failure
import NotebookKernel.FileTree
import NotebookKernel.History
import NotebookKernel.Inbox
import NotebookKernel.Interpreter
import NotebookKernel.Json.Number
import NotebookKernel.Json.Parser
import NotebookKernel.Json.Printer
import NotebookKernel.Json.Reader
import NotebookKernel.Json.Record
import NotebookKernel.Json.Text
import NotebookKernel.Json.Value
import NotebookKernel.Json.Verbatim
import NotebookKernel.Kernel.Basic
import NotebookKernel.Listeners
import NotebookKernel.Main
import NotebookKernel.Message
import NotebookKernel.Outlet
import NotebookKernel.Path
import NotebookKernel.Pattern
import NotebookKernel.Proofs.Json.Reading
import NotebookKernel.Redirection.Argument
import NotebookKernel.Redirection.Guard
import NotebookKernel.Redirection.Hook
import NotebookKernel.Redirection.Rehearsal
import NotebookKernel.Redirection.Stream
import NotebookKernel.Reported
import NotebookKernel.Script
import NotebookKernel.Session
import NotebookKernel.Signals.Diagnostic
import NotebookKernel.Signals.Handling
import NotebookKernel.Signals.Signal
import NotebookKernel.Text.Hex
import NotebookKernel.Text.Printable
import NotebookKernel.Text.Quoted
import NotebookKernel.Text.Utf8
import NotebookKernel.Transport.Clients
import NotebookKernel.Transport.Connection
import NotebookKernel.Transport.Framing
import NotebookKernel.Transport.Hub
import NotebookKernel.Transport.Memory
import NotebookKernel.Transport.Permits
import NotebookKernel.Transport.Run
import NotebookKernel.Uuid
import NotebookKernel.Wire
import NotebookKernel.Proofs.Json.Strings
import NotebookKernel.Proofs.Json.Integers
import NotebookKernel.Proofs.Json.Values
import NotebookKernel.Proofs.Json.Verbatim
import NotebookKernel.Proofs.Json.Records
import NotebookKernel.Proofs.Wire.RoundTrip
import NotebookKernel.Proofs.Text.Utf8
import NotebookKernel.Proofs.Transport.Framing
import NotebookKernel.Proofs.Kernel.Dealings
import NotebookKernel.Proofs.Kernel.Transcript
import NotebookKernel.Proofs.Kernel.Calls
import NotebookKernel.Proofs.Kernel.Counting
import NotebookKernel.Proofs.Transport.Authentication
import NotebookKernel.Proofs.Transport.Questions
import NotebookKernel.Proofs.Transport.Connections
import NotebookKernel.Proofs.Transport.Runs
import NotebookKernel.Proofs.Kernel.Undelivered
import NotebookKernel.Proofs.Transport.Subscribers
import NotebookKernel.Proofs.Transport.Replies
import NotebookKernel.Proofs.Kernel.Routine
import NotebookKernel.Proofs.Transport.Agreement
import NotebookKernel.Proofs.Json.Enclosure
import NotebookKernel.Proofs.Wire.Boundaries
import NotebookKernel.Proofs.Transport.Departures
import NotebookKernel.Proofs.Kernel.Independence
import NotebookKernel.Proofs.Kernel.Views
import NotebookKernel.Proofs.Kernel.Answers
import NotebookKernel.Proofs.Kernel.Consent
import NotebookKernel.Proofs.Kernel.Links
import NotebookKernel.Proofs.History.Search
import NotebookKernel.Proofs.Config.Directives
import NotebookKernel.Proofs.Redirection.Nesting
import NotebookKernel.Proofs.Transport.Writers
import NotebookKernel.Proofs.Kernel.Farewell
import NotebookKernel.Proofs.History.Limits
import NotebookKernel.Proofs.Json.Scalars
import NotebookKernel.Proofs.Signals.Tables
import NotebookKernel.Proofs.Json.Extent
import NotebookKernel.Proofs.Json.Lockstep
import NotebookKernel.Proofs.Json.Delimited
import NotebookKernel.Proofs.Json.Entries
import NotebookKernel.Proofs.Wire.Readers
import NotebookKernel.Proofs.Digest.Running
import NotebookKernel.Proofs.Wire.Signatures
import NotebookKernel.Proofs.Executable.Order
import NotebookKernel.Proofs.Redirection.Originals
import NotebookKernel.Proofs.Redirection.Streams
import NotebookKernel.Proofs.Text.Escaping
import NotebookKernel.Proofs.Transport.Tenures
import NotebookKernel.Proofs.Transport.Permits
import NotebookKernel.Proofs.Signals.Diagnostic
import NotebookKernel.Transport.Tasks
import NotebookKernel.Proofs.Transport.Moves
import NotebookKernel.Proofs.Transport.Pending
import NotebookKernel.Proofs.Transport.Atomicity
