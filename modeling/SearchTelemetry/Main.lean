import SearchTelemetry.Live.Service
import SearchTelemetry.Live.Tool
/-!
# Main — the programs

The service and the tool are one program under two names: it is the tool if its file is named so, else the service.
-/

/-- Runs the program that is asked for by the name of its file. -/
def main (words : List String) : IO UInt32 := do
  let name := (← IO.appPath).fileName
  if name = some "evaltool" then SearchTelemetry.Live.runTool words else SearchTelemetry.Live.runService words
