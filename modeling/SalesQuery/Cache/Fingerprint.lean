import SalesQuery.Digest.Sha256
import SalesQuery.Json.Text

/-!
# Fingerprints

Results are kept under a key that names what was asked: a scope, and the digest of the canonical
text of the request.
-/

namespace SalesQuery

/-- The key of a payload within a scope. -/
def fingerprint (scope : String) (payload : Json.Value) : String :=
  scope ++ ":" ++ Sha256.hexDigest payload.canonicalText

/-- The scope of query results. -/
def queryScope : String := "analytics:query"

/-- The scope of dashboards. -/
def dashboardScope : String := "analytics:kpis"

/-- The scope of comparisons. -/
def comparisonScope : String := "analytics:compare"

/-- The scope of listings. -/
def listingScope : String := "analytics:dimensions"

/-- The pattern of the keys of every scope. -/
def everyScope : String := "analytics:*"

end SalesQuery
