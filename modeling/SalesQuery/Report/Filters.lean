import SalesQuery.Json.Decode

/-!
# Filters of reports

The fixed reports can be restricted to channels, stores and products by their names.
-/

namespace SalesQuery

open Json (Value Decoder)

/-- The names that a report is restricted to; an empty list does not restrict. -/
structure ReportFilters where
  /-- Names of channels. -/
  channels : List String := []
  /-- Names of stores. -/
  stores : List String := []
  /-- Names of products. -/
  products : List String := []
deriving DecidableEq, Inhabited

namespace ReportFilters

/-- The filters as JSON members. -/
def jsonMembers (f : ReportFilters) : List (String × Value) :=
  [("channels", .strings f.channels), ("stores", .strings f.stores),
    ("products", .strings f.products)]

/-- Reads the filters; a missing list is empty. -/
def decoder : Decoder ReportFilters :=
  Decoder.record
    [⟨"channels", false, fun levels d => do
        let channels ← Decoder.list Decoder.string levels d
        return fun f => { f with channels }⟩,
      ⟨"stores", false, fun levels d => do
        let stores ← Decoder.list Decoder.string levels d
        return fun f => { f with stores }⟩,
      ⟨"products", false, fun levels d => do
        let products ← Decoder.list Decoder.string levels d
        return fun f => { f with products }⟩]
    {}

end ReportFilters

end SalesQuery
