import SalesQuery.Request.Basic

/-!
# Requests as JSON

Every part of a request may be missing. A filter is a list if it is written as one, a map of
operators if it is an object, and a single value otherwise.
-/

namespace SalesQuery

open Json (Value Decoder)

namespace FilterInput

/-- The filter that a value is written for. -/
def ofJson : Value → FilterInput
  | .array items => .list items
  | .object members => .operators (Dictionary.ofList members)
  | v => .scalar v

/-- The filter as it is written. -/
def toJson : FilterInput → Value
  | .list values => .array values
  | .operators values => .object values.entries
  | .scalar v => v

/-- Reads a filter. -/
def decoder : Decoder FilterInput := fun levels d => ofJson <$> Decoder.value levels d

end FilterInput

namespace OrderInput

/-- Reads a term of the order. -/
def decoder : Decoder OrderInput :=
  Decoder.record
    [⟨"field", true, fun levels d => do
        let field ← Decoder.string levels d
        return fun t => { t with field }⟩,
      ⟨"direction", false, fun levels d => do
        let direction ← Decoder.optional Decoder.string levels d
        return fun t => { t with direction }⟩]
    { field := "" }

/-- A term of the order as JSON. -/
def toJson (t : OrderInput) : Value :=
  .ofMembers [("field", .string t.field), ("direction", .ofOption .string t.direction)]

end OrderInput

namespace QueryRequest

/-- The parts of a request in their order. -/
def fields : List (Decoder.Field QueryRequest) :=
  [⟨"metrics", false, fun levels d => do
      let metrics ← Decoder.list Decoder.string levels d
      return fun r => { r with metrics }⟩,
    ⟨"dimensions", false, fun levels d => do
      let dimensions ← Decoder.list Decoder.string levels d
      return fun r => { r with dimensions }⟩,
    ⟨"filters", false, fun levels d => do
      let filters ← Decoder.dictionary FilterInput.decoder levels d
      return fun r => { r with filters }⟩,
    ⟨"date_range", false, fun levels d => do
      let dateRange ← Decoder.optional DateRange.decoder levels d
      return fun r => { r with dateRange }⟩,
    ⟨"order_by", false, fun levels d => do
      let orderBy ← Decoder.optional (Decoder.list OrderInput.decoder) levels d
      return fun r => { r with orderBy }⟩,
    ⟨"limit", false, fun levels d => do
      let limit ← Decoder.optional Decoder.int64 levels d
      return fun r => { r with limit }⟩,
    ⟨"offset", false, fun levels d => do
      let offset ← Decoder.optional Decoder.int64 levels d
      return fun r => { r with offset }⟩]

/-- Reads a request. -/
def decoder : Decoder QueryRequest := Decoder.record fields {}

/-- A request as JSON, with every part. -/
def toJson (r : QueryRequest) : Value :=
  .ofMembers
    [("metrics", .strings r.metrics), ("dimensions", .strings r.dimensions),
      ("filters", .object (r.filters.entries.map fun f => (f.1, f.2.toJson))),
      ("date_range", .ofOption DateRange.toJson r.dateRange),
      ("order_by", .ofOption (fun l => .array (l.map OrderInput.toJson)) r.orderBy),
      ("limit", .ofOption .int r.limit), ("offset", .ofOption .int r.offset)]

end QueryRequest

end SalesQuery
