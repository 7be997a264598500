import SalesQuery.Query.JoinPlan
import SalesQuery.Request.Fault

/-!
# Faults of the service

Why the service does not answer a request, with the wording and the HTTP status that callers see.
What went wrong inside is not told.
-/

namespace SalesQuery

/-- Why the service does not answer. -/
inductive ServiceFault where
  /-- The API key is missing or wrong. -/
  | unauthorized
  /-- The request is refused. -/
  | request (fault : RequestFault)
  /-- A resolved query names what the catalog does not have. -/
  | compilation (missing : MissingEntry)
  /-- A statement could not be executed. -/
  | database
deriving DecidableEq

namespace ServiceFault

/-- The fault in words. -/
def message : ServiceFault → String
  | .unauthorized => "authentication failed"
  | .request fault => "invalid request: " ++ fault.message
  | .compilation _ => "query compilation failed"
  | .database => "query execution failed"

/-- The HTTP status. -/
def status : ServiceFault → Nat
  | .unauthorized => 401
  | .request _ => 400
  | .compilation _ => 500
  | .database => 500

end ServiceFault

end SalesQuery
