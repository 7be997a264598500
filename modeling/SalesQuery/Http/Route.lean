import SalesQuery.Report.Listing

/-!
# Routes

The paths of the service, each with the one method that it answers. A path that answers `GET` also
answers `HEAD`.
-/

namespace SalesQuery.Http

/-- What a path leads to. -/
inductive Route where
  /-- Tells that the service runs. -/
  | health
  /-- The rows of a query. -/
  | query
  /-- The statement of a query. -/
  | translate
  /-- The dashboard. -/
  | dashboard
  /-- The comparison of two periods. -/
  | compare
  /-- The values of a listing. -/
  | listing (l : Listing)
  /-- The figures of the cache. -/
  | cacheStats
  /-- Removal of results by pattern. -/
  | clearCache
  /-- Removal of the result of a query. -/
  | invalidateQuery
deriving DecidableEq, Repr

/-- The paths under which the service is reached. -/
def apiRoot : String := "/api/v1/analytics"

/-- Every path with its route. -/
def routes : List (String × Route) :=
  [("/healthz", .health), (apiRoot ++ "/health", .health), (apiRoot ++ "/query", .query),
    (apiRoot ++ "/translate", .translate), (apiRoot ++ "/kpis", .dashboard),
    (apiRoot ++ "/compare", .compare), (apiRoot ++ "/dimensions/stores", .listing .stores),
    (apiRoot ++ "/dimensions/channels", .listing .channels),
    (apiRoot ++ "/dimensions/products", .listing .products),
    (apiRoot ++ "/dimensions/regions", .listing .regions),
    (apiRoot ++ "/cache/stats", .cacheStats), (apiRoot ++ "/cache/clear", .clearCache),
    (apiRoot ++ "/cache/query", .invalidateQuery)]

namespace Route

/-- The route of a path. -/
def ofPath? (path : String) : Option Route := routes.lookup path

/-- The methods that the route answers. -/
def methods : Route → List String
  | .health | .dashboard | .listing _ | .cacheStats => ["GET", "HEAD"]
  | .query | .translate | .compare | .clearCache => ["POST"]
  | .invalidateQuery => ["DELETE"]

/-- The methods as a header value. -/
def allow (r : Route) : String := ",".intercalate r.methods

end Route

end SalesQuery.Http
