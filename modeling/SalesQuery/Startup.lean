import SalesQuery.Database.Url
import SalesQuery.Tls.Identity

/-!
# Starting up

Before the service contacts its database it reads its settings, then the URL of the database, then
the files that secure the connection. The first fault is reported.
-/

namespace SalesQuery

/-- Why the service does not start. -/
inductive StartupFault where
  /-- The environment gives no settings. -/
  | settings (fault : SettingsFault)
  /-- The URL names no database. -/
  | databaseUrl
  /-- The connection cannot be secured. -/
  | tls (fault : TlsFault)
deriving DecidableEq, Repr

/-- The fault in words. -/
def StartupFault.message : StartupFault → String
  | .settings fault => fault.message
  | .databaseUrl => "invalid DATABASE_URL"
  | .tls fault => fault.message

/-- Checks what is needed to connect to a database. -/
def checkConnection (files : FileSystem) (databaseUrl : String) (paths : TlsPaths) :
    Except StartupFault Unit := do
  if !DatabaseUrl.isValid databaseUrl then throw .databaseUrl
  (paths.check files).mapError .tls

/-- The settings that an environment gives, once everything needed to connect is in place. -/
def startUp (files : FileSystem) (resolve : Resolver) (env : Environment) :
    Except StartupFault Settings := do
  let settings ← (Settings.ofEnvironment resolve env).mapError .settings
  checkConnection files settings.databaseUrl settings.tls
  return settings

end SalesQuery
