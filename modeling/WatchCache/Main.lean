import WatchCache.Cli.Run
import WatchCache.Server.Cluster

set_option autoImplicit false

/-!
# The program

Runs the command line.  The cluster is read from standard input, where it stands as one JSON
object; without one no server can be reached.
-/

namespace WatchCache.Cli

/-- The variables that a run looks at. -/
def variableNames : List String :=
  ["KCACHE_NAMESPACE", "KCACHE_RESYNC_SECS", "KCACHE_EVENT_BUFFER", "KCACHE_WATCH_BACKOFF_SECS",
   "KCACHE_STORE_KINDS", "KCACHE_WATCH_NAMESPACES"]

/-- The variables of the process. -/
def readEnvironment : IO Environment :=
  variableNames.filterMapM fun name => do
    return (← IO.getEnv name).map fun value => (name, value.toUTF8)

/-- The endpoint of the cluster that a text describes. -/
def endpointOf? (text : String) : Option Endpoint :=
  if text.all Char.isWhitespace then some .unreachable
  else ((Json.parse text).toOption.bind Cluster.ofJson?).map Cluster.endpoint

/-- The rest of a stream. -/
partial def readAll (input : IO.FS.Stream) (text : String) : IO String := do
  let line ← input.getLine
  if line.isEmpty then return text else readAll input (text ++ line)

end WatchCache.Cli

/-- Runs the command line. -/
def main (args : List String) : IO UInt32 := do
  let env ← WatchCache.Cli.readEnvironment
  let text ← WatchCache.Cli.readAll (← IO.getStdin) ""
  match WatchCache.Cli.endpointOf? text with
  | none =>
    (← IO.getStderr).putStr "Error: the cluster on standard input cannot be read\n"
    return 1
  | some endpoint =>
    let outcome := WatchCache.Cli.run args env endpoint
    (← IO.getStdout).putStr outcome.stdout
    (← IO.getStderr).putStr outcome.stderr
    return UInt32.ofNat outcome.exit
