import Std.Sync.Mutex
import SearchTelemetry.Live.Files
import SearchTelemetry.Program.Serve
/-!
# Live.Service — the service as a program

Connections have a thread each and take turns with the service.  An answer is sent when what it acknowledges is in the
journal's file.  After an interrupt no more connections are accepted, and those that wait for nothing are closed.
-/
namespace SearchTelemetry
namespace Live

open Std.Async.TCP.Socket (Client)

/-- Prints what a program has to say at its end, and gives its code. -/
def finish (o : Outcome) : IO UInt32 := do
  IO.print o.output
  IO.eprint o.errors
  return o.code.toUInt32

/-- A service and the file of its journal. -/
structure Hosted where
  service : Service
  file : Option JournalFile

namespace Hosted

/-- Answers requests, and keeps what they add to the journal.  What cannot be kept is answered as on a full device. -/
def answer (h : Hosted) (unread : List UInt8) : IO (Hosted × Served) := do
  let now ← now
  let source : Http.Source := ⟨unread, [], .quiet⟩
  let served := Served.ofSource now h.service source
  match h.file with
  | none => return ({ h with service := served.service }, served)
  | some file =>
    match ← file.add? served.service.unsaved with
    | some file => return (⟨served.service.saved, some file⟩, served)
    | none =>
      let served := Served.ofSource now h.service.onFullDevice source
      return ({ h with service := served.service.onEmptyDevice }, served)

end Hosted

/-- Answers the requests on a connection. -/
partial def converse (l : Listener) (hosted : Std.Mutex Hosted) (socket : Client) (unread : List UInt8) : IO Unit := do
  match ← firstIncident [(0, socket)] patience with
  | (_, .ended) => hangUp socket
  | (_, .nothing) =>
    if unread.isEmpty && (← l.stopping.isCancelled) then hangUp socket else converse l hosted socket unread
  | (_, .bytes bs) =>
    let served ← hosted.atomically do
      let (h, served) ← (← get).answer (unread ++ bs)
      set h
      return served
    match ← send socket served.written, served.unread with
    | none, some unread => converse l hosted socket unread
    | _, _ => hangUp socket

/-- Serves until the program is interrupted. -/
def serve (settings : Settings) (service : Service) (file : Option JournalFile) : IO UInt32 := do
  let listener? ←
    try pure (Except.ok (← Listener.onAddress settings.bind settings.backlog))
    catch e => pure (.error e)
  match listener? with
  | .error e => finish (.notStarted (.within ("Failed to bind to " ++ settings.bind.text) (.plain (reason e))))
  | .ok listener =>
    let hosted ← Std.Mutex.new (⟨service, file⟩ : Hosted)
    listener.run fun _ socket => converse listener hosted socket []
    return 0

/-- Opens the store that settings ask for, and serves from it. -/
def openAndServe (settings : Settings) : IO UInt32 := do
  let directory ←
    match settings.dataDirectory with
    | none => pure (.journal [])
    | some name => dataDirectory name
  match Service.ofSettings settings directory with
  | .error causes => finish (.notStarted causes)
  | .ok service =>
    match settings.dataDirectory, directory with
    | some name, .journal before =>
      let file : JournalFile := ⟨journalPath name, before.length⟩
      match ← file.add? (service.unsaved.drop before.length) with
      | some file => serve settings service.saved (some file)
      | none => finish (.notStarted ⟨"Failed to open store in " ++ name, ["Failed to open journal"]⟩)
    | _, _ => serve settings service none

/-- The answer of the user to the question that an action asks, if it asks one. -/
def ask (question : String) : IO String := do
  if question.isEmpty then return ""
  IO.eprint question
  (← IO.getStderr).flush
  (← IO.getStdin).getLine

/-- The service on a command line. -/
def runService (words : List String) : IO UInt32 := do
  let path ← settingsPath
  let before ← settingsFiles path
  let question :=
    match ServiceInvocation.read words with
    | .ok ⟨_, _, some action⟩ => action.question path before
    | _ => ""
  match Start.ofWords path words (← environment) (← ask question) before with
  | .ended outcome after =>
    saveSettings path before after
    finish { outcome with errors := (outcome.errors.drop question.length).toString }
  | .ready settings after =>
    saveSettings path before after
    makeLogs settings.log
    openAndServe settings

end Live
end SearchTelemetry
