import SalesQuery.Network.SocketAddress
import SalesQuery.Settings.Environment

/-!
# Settings

What the service is told by its environment. Numbers out of range are moved into it rather than
refused: no time is zero, the pool holds at least one connection and keeps no more idle than it
holds, and the limits satisfy `1 ≤ defaultLimit ≤ maxLimit ≤ hardMaxLimit`.
-/

namespace SalesQuery

/-- The greatest number of rows that any query may ask for. -/
def hardMaxLimit : Int := 1000

/-- Where results are kept. -/
inductive CacheBackend where
  /-- In a store at an address. -/
  | redis (url : String)
  /-- In the memory of the service. -/
  | memory
  /-- Nowhere. -/
  | disabled
deriving DecidableEq, Repr

/-- The files that secure the connection to the database. -/
structure TlsPaths where
  /-- The certificates to trust. -/
  rootCert : Option String := none
  /-- The certificates of the service. -/
  clientCert : Option String := none
  /-- The private key of the service. -/
  clientKey : Option String := none
deriving DecidableEq, Repr

/-- The settings of the service. Times are in seconds. -/
structure Settings where
  /-- Where the service listens. -/
  listenAddress : SocketAddress
  /-- The database. -/
  databaseUrl : String
  /-- The least number of idle connections. -/
  minIdle : Nat
  /-- The greatest number of connections. -/
  maxConnections : Nat
  /-- How long a connection is waited for. -/
  poolTimeout : Nat
  /-- The files that secure the connection to the database. -/
  tls : TlsPaths
  /-- Where results are kept. -/
  cache : CacheBackend
  /-- How long results are kept. -/
  cacheTtl : Nat
  /-- The key that callers have to present, if any. -/
  apiKey : Option String
  /-- The origins whose pages may read answers. -/
  allowedOrigins : Option (List String)
  /-- The greatest number of rows of a query that does not say. -/
  defaultLimit : Int
  /-- The greatest number of rows that a query may ask for. -/
  maxLimit : Int
  /-- How long a request may take. -/
  requestTimeout : Nat
deriving DecidableEq, Repr

/-- Why an environment does not give settings. -/
inductive SettingsFault where
  /-- A variable cannot be read. -/
  | unreadable (fault : UnreadableVariable)
  /-- The address to listen on cannot be read or looked up. -/
  | listenAddress
  /-- The address to listen on leads nowhere. -/
  | noListenAddress
  /-- The host and the port to listen on cannot be read or looked up. -/
  | listenHost
  /-- The host and the port to listen on lead nowhere. -/
  | noListenHost
  /-- There is no database. -/
  | noDatabase
  /-- The cache is to be kept in a store without an address. -/
  | noStoreAddress
  /-- There is no such place for the cache. -/
  | unknownCache (name : String)
deriving DecidableEq, Repr

/-- The fault in words. -/
def SettingsFault.message : SettingsFault → String
  | .unreadable _ => "failed to parse ANALYTICS_* environment variables"
  | .listenAddress => "invalid ANALYTICS_LISTEN_ADDR value"
  | .noListenAddress => "ANALYTICS_LISTEN_ADDR resolved to no addresses"
  | .listenHost => "invalid analytics listen host/port combination"
  | .noListenHost => "listen address resolved to no targets"
  | .noDatabase => "ANALYTICS_DATABASE_URL or DATABASE_URL must be set"
  | .noStoreAddress => "ANALYTICS_CACHE_BACKEND=redis requires ANALYTICS_REDIS_URL or REDIS_URL"
  | .unknownCache name => "unsupported ANALYTICS_CACHE_BACKEND '" ++ name ++ "'"

/-- The variables as they are set, before they are put together. -/
structure RawSettings where
  /-- The address to listen on. -/
  listenAddress : Option String
  /-- The host to listen on. -/
  listenHost : Option String
  /-- The port to listen on. -/
  listenPort : Option Nat
  /-- The database. -/
  databaseUrl : Option String
  /-- The least number of idle connections. -/
  minIdle : Nat
  /-- The greatest number of connections. -/
  maxConnections : Nat
  /-- How long a connection is waited for. -/
  poolTimeout : Nat
  /-- The files that secure the connection to the database. -/
  tls : TlsPaths
  /-- The name of the place for the cache. -/
  cache : Option String
  /-- The address of a store for the cache. -/
  storeUrl : Option String
  /-- How long results are kept. -/
  cacheTtl : Nat
  /-- The key that callers have to present, if any. -/
  apiKey : Option String
  /-- The origins whose pages may read answers, separated by commas. -/
  allowedOrigins : Option String
  /-- The greatest number of rows of a query that does not say. -/
  defaultLimit : Int
  /-- The greatest number of rows that a query may ask for. -/
  maxLimit : Int
  /-- How long a request may take. -/
  requestTimeout : Nat
deriving DecidableEq, Repr

/-- Reads the variables. -/
def RawSettings.ofEnvironment (env : Environment) : Except UnreadableVariable RawSettings := do
  return {
    listenAddress := ← env.text "analytics_listen_addr"
    listenHost := ← env.text "analytics_listen_host"
    listenPort := ← env.read (Text.unsignedOf? 16) "analytics_listen_port"
    databaseUrl := (← env.text "analytics_database_url") <|> (← env.text "database_url")
    minIdle := ← env.unsigned 32 "analytics_min_pool_idle" 5
    maxConnections := ← env.unsigned 32 "analytics_max_pool_size" 20
    poolTimeout := ← env.unsigned 64 "analytics_pool_timeout_secs" 60
    tls := {
      rootCert := ← env.text "pgsslrootcert"
      clientCert := ← env.text "pgsslcert"
      clientKey := ← env.text "pgsslkey" }
    cache := ← env.text "analytics_cache_backend"
    storeUrl := (← env.text "analytics_redis_url") <|> (← env.text "redis_url")
    cacheTtl := ← env.unsigned 64 "analytics_cache_ttl_secs" 300
    apiKey := ← env.text "analytics_api_key"
    allowedOrigins := ← env.text "analytics_allowed_origins"
    defaultLimit := ← env.int64 "analytics_default_limit" 100
    maxLimit := ← env.int64 "analytics_max_limit" hardMaxLimit
    requestTimeout := ← env.unsigned 64 "analytics_request_timeout_secs" 30 }

namespace RawSettings

/-- The host to listen on by default. -/
def defaultHost : String := "0.0.0.0"

/-- The port to listen on by default. -/
def defaultPort : Nat := 8000

/-- The first of the socket addresses that a text names; one fault if there are no such addresses, and
another if their list is empty. -/
def firstAddress (resolve : Resolver) (unread empty : SettingsFault) (text : String) :
    Except SettingsFault SocketAddress :=
  match SocketAddress.ofText? resolve text.toList with
  | none => .error unread
  | some [] => .error empty
  | some (address :: _) => .ok address

/-- The address to listen on: the one given, or else the one of the host and the port. -/
def resolveAddress (resolve : Resolver) (raw : RawSettings) :
    Except SettingsFault SocketAddress :=
  match raw.listenAddress with
  | some address => firstAddress resolve .listenAddress .noListenAddress address
  | none =>
    let host := raw.listenHost.getD defaultHost
    let port := toString (raw.listenPort.getD defaultPort)
    firstAddress resolve .listenHost .noListenHost (host ++ ":" ++ port)

/-- Where results are kept. Without a name, a store is used if it has an address. -/
def resolveCache (raw : RawSettings) : Except SettingsFault CacheBackend :=
  match Text.lowerCase (Text.trim (raw.cache.getD "")) with
  | "" => .ok (match raw.storeUrl with
    | some url => .redis url
    | none => .disabled)
  | "redis" =>
    match raw.storeUrl with
    | some url => .ok (.redis url)
    | none => .error .noStoreAddress
  | "memory" => .ok .memory
  | "none" => .ok .disabled
  | "disabled" => .ok .disabled
  | other => .error (.unknownCache other)

end RawSettings

/-- The origins in a list that is separated by commas; none if there are none in it. -/
def originList (csv : Option String) : Option (List String) :=
  match (csv.map Text.commaList).getD [] with
  | [] => none
  | origins => some origins

/-- The integer moved between two bounds. -/
def clamp (low high n : Int) : Int := if n < low then low else if high < n then high else n

/-- The settings that an environment gives on a machine that looks up hosts. The first fault in the
order of the statements below is reported. -/
def Settings.ofEnvironment (resolve : Resolver) (env : Environment) :
    Except SettingsFault Settings := do
  let raw ← (RawSettings.ofEnvironment env).mapError .unreadable
  let listenAddress ← raw.resolveAddress resolve
  let some databaseUrl := raw.databaseUrl | throw .noDatabase
  let cache ← raw.resolveCache
  let maxLimit := clamp 1 hardMaxLimit raw.maxLimit
  let maxConnections := max 1 raw.maxConnections
  return {
    listenAddress
    databaseUrl
    minIdle := min raw.minIdle maxConnections
    maxConnections
    poolTimeout := max 1 raw.poolTimeout
    tls := raw.tls
    cache
    cacheTtl := max 1 raw.cacheTtl
    apiKey := raw.apiKey
    allowedOrigins := originList raw.allowedOrigins
    defaultLimit := clamp 1 maxLimit raw.defaultLimit
    maxLimit
    requestTimeout := max 1 raw.requestTimeout }

end SalesQuery
