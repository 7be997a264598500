import SalesQuery.Query.Compile
import SalesQuery.Query.Resolve
import SalesQuery.Report.Aggregate
import SalesQuery.Report.Comparison
import SalesQuery.Report.Dashboard
import SalesQuery.Report.Listing
import SalesQuery.Request.Json
import SalesQuery.Service.Session

/-!
# The engine

The engine answers requests over one catalog and one database. A request is checked in full before
anything is looked up or executed, and its result is kept under its canonical form.
-/

namespace SalesQuery

open Json (Value Decoder)

/-- The fixed parts of the service. -/
structure Engine (σ : Type) where
  /-- What requests may name. -/
  catalog : Catalog
  /-- The greatest number of rows of a query that does not say. -/
  defaultLimit : Int
  /-- The greatest number of rows that a query may ask for. -/
  maxLimit : Int
  /-- Executes statements. -/
  execute : Executor σ

/-! ## Answers -/

/-- How many rows an answer has, and whether they were kept from an earlier one. -/
structure Metadata where
  /-- The number of rows. -/
  totalRows : Nat
  /-- Whether the rows were kept. -/
  cached : Bool
deriving DecidableEq, Repr

/-- The metadata as JSON. -/
def Metadata.toJson (m : Metadata) : Value :=
  .ofMembers [("total_rows", .nat m.totalRows), ("cached", .bool m.cached)]

/-- The rows of a query. -/
structure QueryAnswer where
  /-- The rows. -/
  data : List Row
  /-- The metadata. -/
  metadata : Metadata

/-- The rows as JSON. -/
def QueryAnswer.toJson (a : QueryAnswer) : Value :=
  .ofMembers [("data", .array (a.data.map Row.toJson)), ("metadata", a.metadata.toJson)]

/-- A dashboard. -/
structure DashboardAnswer where
  /-- The cards. -/
  cards : List Card
  /-- The label of the range of days. -/
  period : String
  /-- The metadata. -/
  metadata : Metadata

/-- The dashboard as JSON. -/
def DashboardAnswer.toJson (a : DashboardAnswer) : Value :=
  .ofMembers [("kpis", .array (a.cards.map Card.toJson)), ("period", .string a.period),
    ("metadata", a.metadata.toJson)]

/-- A comparison of two periods. -/
structure ComparisonAnswer where
  /-- The base period. -/
  base : Period
  /-- The other period. -/
  compare : Period
  /-- The metrics in both. -/
  comparisons : List (MetricComparison Binary64)
  /-- The metadata. -/
  metadata : Metadata

/-- The comparison as JSON. -/
def ComparisonAnswer.toJson (a : ComparisonAnswer) : Value :=
  .ofMembers [("base_period", a.base.toJson), ("compare_period", a.compare.toJson),
    ("comparisons", .array (a.comparisons.map MetricComparison.toJson)),
    ("metadata", a.metadata.toJson)]

/-- The values of a listing. -/
structure ListingAnswer where
  /-- What is listed. -/
  listing : Listing
  /-- The values. -/
  values : List ListedValue

/-- The values as JSON. -/
def ListingAnswer.toJson (a : ListingAnswer) : Value :=
  .ofMembers [("dimension", .string a.listing.name),
    ("values", .array (a.values.map ListedValue.toJson)), ("total", .nat a.values.length)]

/-- A statement as JSON. The parameters are left out if there are none. -/
def CompiledQuery.toJson (q : CompiledQuery) : Value :=
  let params := if q.params.isEmpty then []
    else [("params", Value.array (q.params.map Scalar.toTaggedJson))]
  .ofMembers (("sql", .string q.sql) :: params)

/-! ## Codecs -/

/-- Rows, as they are kept. -/
def Row.codec : Codec Row := ⟨fun row => some row.toJson, Row.decoder⟩

/-- Cards, as they are kept. -/
def Card.codec : Codec Card := ⟨fun card => some card.toJson, Card.decoder⟩

/-- Compared metrics, as they are kept. -/
def MetricComparison.codec : Codec (MetricComparison Binary64) :=
  ⟨fun comparison => some comparison.toJson, MetricComparison.decoder⟩

/-- Listed values, as they are kept. -/
def ListedValue.codec : Codec ListedValue := ⟨fun value => some value.toJson, ListedValue.decoder⟩

namespace Engine

variable {σ : Type}

/-! ## Queries -/

/-- The canonical form of a request under the engine's default limit. -/
def canonical (e : Engine σ) (r : QueryRequest) : Except ServiceFault QueryRequest := do
  let r ← r.normalize.mapError .request
  return { r with limit := some (r.limit.getD e.defaultLimit) }

/-- The canonical form of a request and its statement. -/
def prepare (e : Engine σ) (r : QueryRequest) :
    Except ServiceFault (QueryRequest × CompiledQuery) := do
  let r ← e.canonical r
  let resolved ← (r.resolve e.catalog e.maxLimit).mapError .request
  let compiled ← (resolved.compile e.catalog).mapError .compilation
  return (r, compiled)

/-- The statement of a request. -/
def translate (e : Engine σ) (r : QueryRequest) : Except ServiceFault CompiledQuery :=
  (·.2) <$> e.prepare r

/-- The rows of a request. -/
def query (e : Engine σ) (m : Moment) (r : QueryRequest) (s : Session σ) : Reply σ QueryAnswer :=
  match e.prepare r with
  | .error fault => (.ok (.error fault), s)
  | .ok (r, compiled) =>
    let (result, s) := s.getOrCompute m Row.codec.list queryScope r.toJson
      (Backend.fetch e.execute compiled)
    (result.map (·.map fun (data, cached) => ⟨data, ⟨data.length, cached⟩⟩), s)

/-! ## Reports -/

/-- The dashboard of a request. -/
def dashboard (e : Engine σ) (m : Moment) (r : DashboardRequest) (s : Session σ) :
    Reply σ DashboardAnswer :=
  let compute (b : Backend σ) : Except ServiceFault (List Card) × Backend σ :=
    let (rows, b) := b.fetch e.execute (aggregateQuery r.dateRange r.filters)
    (rows.map fun rows => dashboardCards rows.head?, b)
  let (result, s) := s.getOrCompute m Card.codec.list dashboardScope r.toJson compute
  (result.map (·.map fun (cards, cached) =>
    ⟨cards, r.dateRange.label, ⟨cards.length, cached⟩⟩), s)

/-- The comparison of a request. -/
def compare (e : Engine σ) (m : Moment) (r : ComparisonRequest) (s : Session σ) :
    Reply σ ComparisonAnswer :=
  match r.check with
  | .error fault => (.ok (.error (.request fault)), s)
  | .ok () =>
    let compute (b : Backend σ) :
        Except ServiceFault (List (MetricComparison Binary64)) × Backend σ :=
      let (rows, b) := b.fetchBoth e.execute (aggregateQuery r.base.toRange r.filters)
        (aggregateQuery r.compare.toRange r.filters)
      (rows.map fun (base, compare) => comparisons base.head? compare.head?, b)
    let (result, s) := s.getOrCompute m MetricComparison.codec.list comparisonScope r.toJson compute
    (result.map (·.map fun (l, cached) => ⟨r.base, r.compare, l, ⟨l.length, cached⟩⟩), s)

/-- The limit that applies to a listing: only products have one. -/
def listingLimit (l : Listing) (limit : Option Int) : Option Int :=
  match l with
  | .products => some (limit.getD defaultProductLimit)
  | _ => none

/-- What the values of a listing are kept under. -/
def listingPayload (l : Listing) (limit : Option Int) : Value :=
  .ofMembers [("dimension", .string l.name), ("limit", .ofOption .int limit)]

/-- The values of a listing. -/
def list (e : Engine σ) (m : Moment) (l : Listing) (limit : Option Int) (s : Session σ) :
    Reply σ ListingAnswer :=
  let limit := listingLimit l limit
  match l.query limit with
  | .error fault => (.ok (.error (.request fault)), s)
  | .ok compiled =>
    let compute (b : Backend σ) : Except ServiceFault (List ListedValue) × Backend σ :=
      let (rows, b) := b.fetch e.execute compiled
      (rows.map fun rows => rows.map ListedValue.ofRow, b)
    let (result, s) :=
      s.getOrCompute m ListedValue.codec.list listingScope (listingPayload l limit) compute
    (result.map (·.map fun (values, _) => ⟨l, values⟩), s)

/-! ## The cache -/

/-- Removes the results whose keys match a pattern, and tells how many. -/
def clearCache (_e : Engine σ) (m : Moment) (pattern : String) (s : Session σ) :
    Nat × Session σ :=
  let (deleted, cache) := s.cache.invalidatePattern m pattern
  (deleted, { s with cache })

/-- Removes the result of a request, and tells whether there was one. -/
def invalidateQuery (e : Engine σ) (m : Moment) (r : QueryRequest) (s : Session σ) :
    Reply σ Bool :=
  match e.canonical r with
  | .error fault => (.ok (.error fault), s)
  | .ok r =>
    let (removed, cache) := s.cache.invalidateOne m queryScope (some r.toJson)
    (.ok (.ok removed), { s with cache })

/-- The figures of the cache. -/
def cacheStats (_e : Engine σ) (m : Moment) (s : Session σ) : Checked CacheStats × Session σ :=
  let (stats, cache) := s.cache.stats m
  (stats, { s with cache })

end Engine

end SalesQuery
