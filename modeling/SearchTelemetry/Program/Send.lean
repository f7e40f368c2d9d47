import SearchTelemetry.CommandLine.Tool
import SearchTelemetry.Http.Rendered
import SearchTelemetry.Http.Syntax
import SearchTelemetry.Http.Url
import SearchTelemetry.Program.Outcome
/-!
# Program.Send — what the tool sends

The tool sends one request and prints the response.  What is wrong with the command line, the settings or a report is found
before anything is sent.  A text with line breaks or other control characters cannot travel in a header.
-/
namespace SearchTelemetry

/-- What becomes of a run of the tool before the network is needed. -/
inductive Sending where
  /-- The program has ended. -/
  | ended (outcome : Outcome)
  /-- A request is to be sent. -/
  | request (service : SocketAddress) (r : Request)
  /-- The relay is to be run on a port. -/
  | relay (port : UInt16) (service : SocketAddress) (settings : Settings)
deriving DecidableEq, Repr

namespace Sending

/-- Why there is no response. -/
def unreachable (service : SocketAddress) (reason : String) : Outcome :=
  .failed ("could not reach " ++ service.text ++ ": " ++ reason)

/-- Whether every header value can travel. -/
def canTravel (r : Request) : Bool :=
  r.headers.all fun h => (Utf8.bytes h.2).all Http.Syntax.isText

/-- Runs the tool on a command line, up to the network. -/
def ofWords (path : String) (words : List String) (env : Environment) (content : Option (List UInt8)) : Sending :=
  match ToolInvocation.read words with
  | .error r => ended (r.outcome ToolAction.grammar)
  | .ok i =>
    match Settings.load path content env with
    | .error f => ended (.failed f.causes.line)
    | .ok settings =>
      let service := i.service settings
      match i.action, i.action.command? with
      | .relay port, _ => relay port service settings
      | _, .error f => ended (.failed f.message)
      | _, .ok none => ended (.done "")
      | _, .ok (some c) =>
        if canTravel c.encode then request service c.encode else ended (unreachable service "builder error")

/-- How the tool ends if the service cannot be reached. -/
def notReached (service : SocketAddress) (r : Request) : Outcome :=
  unreachable service ("error sending request for url (" ++ Http.url service r.path ++ ")")

/-- How the tool ends if the service breaks off inside the body of its response. -/
def brokenOff (service : SocketAddress) : Outcome :=
  unreachable service "error decoding response body"

/-- How the tool ends with a response. -/
def answered (r : Http.Response) : Outcome :=
  .done (r.render ++ "\n")

end Sending
end SearchTelemetry
