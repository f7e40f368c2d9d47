import SearchTelemetry.Proofs.Store.Crash
import SearchTelemetry.Proofs.Service.Acknowledged
import SearchTelemetry.Proofs.Service.Unchanged
import SearchTelemetry.Proofs.Command
import SearchTelemetry.Main
import SearchTelemetry.Instant.HttpDate
import SearchTelemetry.Http.Arrival
import SearchTelemetry.Program.Serve
import SearchTelemetry.Relay.Server
import SearchTelemetry.Relay.Connection
import SearchTelemetry.Program.Start
import SearchTelemetry.Program.Send
import SearchTelemetry.CommandLine.Service
import SearchTelemetry.CommandLine.Tool
import SearchTelemetry.CommandLine.Reader
import SearchTelemetry.Settings.Layout
import SearchTelemetry.Toml.Spelling
import SearchTelemetry.Toml.Document
import SearchTelemetry.Net.SocketAddress
import SearchTelemetry.Relay.Capture
import SearchTelemetry.Service
import SearchTelemetry.Instant.Reader
import SearchTelemetry.Fault
import SearchTelemetry.Gateway
import SearchTelemetry.Http.Rendered
import SearchTelemetry.Http.Stream
import SearchTelemetry.Json.Printer
import SearchTelemetry.Json.Reader
import SearchTelemetry.Json.Written
import SearchTelemetry.Text.Blank
import SearchTelemetry.Text.Lowercase
import SearchTelemetry.Text.Preview
import SearchTelemetry.Text.Quoted
import SearchTelemetry.Proofs.Http.Bodies
import SearchTelemetry.Proofs.Http.Segments
import SearchTelemetry.Proofs.Http.Room
import SearchTelemetry.Proofs.Allocator
import SearchTelemetry.Proofs.Http.Heads
import SearchTelemetry.Proofs.Http.Messages
import SearchTelemetry.Proofs.Relay.Transfers
import SearchTelemetry.Proofs.Relay.Moves
import SearchTelemetry.Proofs.Relay.Requests
import SearchTelemetry.Proofs.Relay.Replies
import SearchTelemetry.Proofs.Relay.Events
import SearchTelemetry.Proofs.Relay.Stopping
import SearchTelemetry.Proofs.Http.Chunks
import SearchTelemetry.Proofs.Service.Sound
import SearchTelemetry.Proofs.Settings.Refreshed
import SearchTelemetry.Proofs.Http.FirstHead
import SearchTelemetry.Proofs.Http.Delimiters
import SearchTelemetry.Proofs.Suggestion.Listed
import SearchTelemetry.Proofs.Suggestion.Ranked
import SearchTelemetry.Proofs.Suggestion.Distinct
import SearchTelemetry.Proofs.Suggestion.Begun
import SearchTelemetry.Proofs.Preview
import SearchTelemetry.Proofs.Resubmitted
import SearchTelemetry.Proofs.Gateway
import SearchTelemetry.Proofs.Service.Accepted
import SearchTelemetry.Proofs.Relay.Closing
import SearchTelemetry.Proofs.Http.Rendered
import SearchTelemetry.Proofs.Parameters
import SearchTelemetry.Proofs.Relay.Captured
import SearchTelemetry.Proofs.Preview.Bounded
