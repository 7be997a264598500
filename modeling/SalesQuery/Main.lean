import SalesQuery.Network.HostAddress
import SalesQuery.Startup
import SalesQuery.Text.Utf8

/-!
# The program

Checks that the service can start in the environment of the process: it prints the address to listen
on, or the fault and fails.
-/

namespace SalesQuery

/-- The variables that the service looks at. -/
def variableNames : List String :=
  ["ANALYTICS_LISTEN_ADDR", "ANALYTICS_LISTEN_HOST", "ANALYTICS_LISTEN_PORT",
    "ANALYTICS_DATABASE_URL", "DATABASE_URL", "ANALYTICS_MIN_POOL_IDLE", "ANALYTICS_MAX_POOL_SIZE",
    "ANALYTICS_POOL_TIMEOUT_SECS", "PGSSLROOTCERT", "PGSSLCERT", "PGSSLKEY",
    "ANALYTICS_CACHE_BACKEND", "ANALYTICS_REDIS_URL", "REDIS_URL", "ANALYTICS_CACHE_TTL_SECS",
    "ANALYTICS_API_KEY", "ANALYTICS_ALLOWED_ORIGINS", "ANALYTICS_DEFAULT_LIMIT",
    "ANALYTICS_MAX_LIMIT", "ANALYTICS_REQUEST_TIMEOUT_SECS"]

/-- The variables of the process that are set. -/
def processEnvironment : IO Environment :=
  variableNames.filterMapM fun name => do return (← IO.getEnv name).map (name, ·)

/-- What a path of the machine leads to. -/
def readEntry (path : String) : IO FileEntry := do
  match ← (IO.FS.Handle.mk path .read).toBaseIO with
  | .error _ => return .missing
  | .ok handle =>
    match ← handle.readBinToEnd.toBaseIO with
    | .error _ => return .unreadable
    | .ok bytes => return .text (String.ofList (Text.decodeLossy bytes.toList))

/-- What the paths in the environment lead to. -/
def readFiles (env : Environment) : IO FileSystem := do
  let entries ← env.mapM fun (_, path) => return (path, ← readEntry path)
  return fun path => (entries.lookup path).getD .missing

end SalesQuery

open SalesQuery in
/-- Reports whether the service can start. -/
def main : IO UInt32 := do
  let env ← processEnvironment
  match startUp (← readFiles env) .numeric env with
  | .ok settings =>
    IO.println ("analytics API can listen on " ++ settings.listenAddress.text)
    return 0
  | .error fault =>
    IO.eprintln ("Error: " ++ fault.message)
    return 1
