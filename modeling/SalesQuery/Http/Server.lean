import SalesQuery.Http.MediaType
import SalesQuery.Http.Message
import SalesQuery.Http.QueryString
import SalesQuery.Http.Route
import SalesQuery.Json.Bytes
import SalesQuery.Service.Engine

/-!
# The server

A request is answered in steps: its path and method select a route, the route reads the body and the
query string, the API key is checked, and only then the engine is asked. A request that fails one
step does not reach the next. With a list of origins, questions of browsers about what they may send
are answered before any of this. A request whose answer an overflow breaks off gets no response.
-/

namespace SalesQuery.Http

open Json (Value Decoder Flaw)

/-- The engine with what is configured about its callers. -/
structure Server (σ : Type) where
  /-- The engine. -/
  engine : Engine σ
  /-- The key that callers have to present, if any. -/
  apiKey : Option String
  /-- The origins whose pages may read answers. -/
  allowedOrigins : Option (List String)

/-- A response, unless there is none, with the session after it. -/
abbrev Answer (σ : Type) := Checked Response × Session σ

/-! ## Reading requests -/

/-- The header that carries the API key. -/
def apiKeyHeader : String := "x-api-key"

/-- Whether a request carries the configured key. Without one, every request does. -/
def Server.authorizes {σ : Type} (server : Server σ) (r : Request) : Bool :=
  match server.apiKey with
  | none => true
  | some key => r.textHeader? apiKeyHeader = some key

/-- The greatest number of bytes of a body that is read. -/
def maxBodyBytes : Nat := 2097152

/-- The value in the body of a request, or the status that refuses it: the body is declared as JSON,
it is not too long, it is JSON and it fits. What follows the value in the body is not looked at. -/
def readBody {α : Type} (decode : Decoder α) (r : Request) : Except Nat α :=
  if !((r.textHeader? "content-type").any isJsonType) then .error 415
  else if maxBodyBytes < r.body.length then .error 413
  else
    (decode.ofBeginning (Json.charsOfBytes false r.body)).mapError fun
      | .illFormed => 400
      | .misfit => 422

/-- The parameters in the query string of a request, or the status that refuses them. -/
def readParams {α : Type} (fields : List (Decoder.Field α)) (initial : α) (r : Request) :
    Except Nat α :=
  match readQuery? fields initial r.query with
  | some params => .ok params
  | none => .error 400

/-! ## Responses -/

/-- The response to a fault. -/
def Response.ofFault (fault : ServiceFault) : Response :=
  { status := fault.status, body := some (.ofMembers [("error", .string fault.message)]) }

/-- The response with a value. -/
def Response.ofValue (v : Value) : Response := { status := 200, body := some v }

/-- The response to the outcome of a request. -/
def Response.ofOutcome {α : Type} (encode : α → Value) : Except ServiceFault α → Response
  | .ok a => .ofValue (encode a)
  | .error fault => .ofFault fault

/-- The response to the outcome of a request, with the session. -/
def respond {σ α : Type} (encode : α → Value) (reply : Reply σ α) : Answer σ :=
  (reply.1.map (.ofOutcome encode), reply.2)

namespace Server

variable {σ : Type}

/-- Answers what a route has read, if the request carries the key. -/
def guarded {α : Type} (server : Server σ) (r : Request) (input : Except Nat α)
    (answer : α → Session σ → Answer σ) (s : Session σ) : Answer σ :=
  match input with
  | .error status => (.ok { status }, s)
  | .ok a => if server.authorizes r then answer a s else (.ok (.ofFault .unauthorized), s)

/-- The pattern of the results to remove: all of them, unless the request gives one. -/
def clearPattern (given : Option String) : String :=
  match given with
  | some pattern => if Text.trim pattern = "" then everyScope else pattern
  | none => everyScope

/-- The answer of a route. -/
def handle (server : Server σ) (m : Moment) (r : Request) (s : Session σ) : Route → Answer σ
  | .health =>
    (.ok (.ofValue (.ofMembers
      [("status", .string "healthy"), ("service", .string "analytics-api")])), s)
  | .query =>
    server.guarded r (readBody QueryRequest.decoder r)
      (fun q s => respond QueryAnswer.toJson (server.engine.query m q s)) s
  | .translate =>
    server.guarded r (readBody QueryRequest.decoder r)
      (fun q s => respond CompiledQuery.toJson (.ok (server.engine.translate q), s)) s
  | .dashboard =>
    server.guarded r (readParams DashboardParams.fields {} r)
      (fun params s =>
        match params.toRequest with
        | .error fault => (.ok (.ofFault (.request fault)), s)
        | .ok request => respond DashboardAnswer.toJson (server.engine.dashboard m request s)) s
  | .compare =>
    server.guarded r (readBody ComparisonRequest.decoder r)
      (fun c s => respond ComparisonAnswer.toJson (server.engine.compare m c s)) s
  | .listing .products =>
    server.guarded r (readParams limitFields none r)
      (fun limit s => respond ListingAnswer.toJson (server.engine.list m .products limit s)) s
  | .listing l =>
    server.guarded r (.ok ())
      (fun _ s => respond ListingAnswer.toJson (server.engine.list m l none s)) s
  | .cacheStats =>
    server.guarded r (.ok ())
      (fun _ s =>
        let (stats, s) := server.engine.cacheStats m s
        (stats.map fun stats => .ofValue stats.toJson, s)) s
  | .clearCache =>
    server.guarded r (readParams patternFields none r)
      (fun given s =>
        let pattern := clearPattern given
        let (deleted, s) := server.engine.clearCache m pattern s
        (.ok (.ofValue (.ofMembers [("deleted", .nat deleted), ("pattern", .string pattern)])), s)) s
  | .invalidateQuery =>
    server.guarded r (readBody QueryRequest.decoder r)
      (fun q s => respond (fun removed => .ofMembers [("deleted", .bool removed)])
        (server.engine.invalidateQuery m q s)) s

/-- A response without its body, if the request asks for none. -/
def bodyFor (r : Request) (response : Response) : Response :=
  if r.method = "HEAD" then { response with body := none } else response

/-- The answer to a request, apart from other origins. A response to `HEAD` has no body. -/
def dispatch (server : Server σ) (m : Moment) (r : Request) (s : Session σ) : Answer σ :=
  match Route.ofPath? r.path with
  | none => (.ok { status := 404 }, s)
  | some route =>
    if r.method ∈ route.methods then
      let (response, s) := server.handle m r s route
      (response.map (bodyFor r), s)
    else (.ok { status := 405, allow := some route.allow }, s)

/-! ## Other origins -/

/-- Whether a text may stand in a header. -/
def isHeaderValue (s : String) : Bool :=
  s.toList.all fun c => c = '\t' || (32 ≤ c.toNat && c.toNat ≠ 127)

/-- The origins that can be allowed; none if the list is missing or has no usable entry. -/
def origins (server : Server σ) : List String :=
  (server.allowedOrigins.getD []).filter isHeaderValue

/-- The origin of a request, if it is allowed. -/
def allowedOrigin? (server : Server σ) (r : Request) : Option String :=
  (r.header? "origin").filter fun origin => origin ∈ server.origins

/-- The answer to a browser that asks what it may send. -/
def preflight (server : Server σ) (r : Request) : Response where
  status := 200
  allow := (Route.ofPath? r.path).map Route.allow
  allowOrigin := server.allowedOrigin? r
  allowMethods := some "*"
  allowHeaders := some "*"

/-- The answer to a request. -/
def answer (server : Server σ) (m : Moment) (r : Request) (s : Session σ) : Answer σ :=
  if server.origins.isEmpty then server.dispatch m r s
  else if r.method = "OPTIONS" then (.ok (server.preflight r), s)
  else
    let (response, s) := server.dispatch m r s
    (response.map fun response =>
      { response with allowOrigin := server.allowedOrigin? r }, s)

end Server

end SalesQuery.Http
