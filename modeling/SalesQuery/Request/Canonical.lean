import SalesQuery.Request.Basic
import SalesQuery.Request.Fault

/-!
# Canonical requests

Requests that ask for the same have one canonical form: tokens are trimmed and occur once, and the
two date filters become the range of days unless one is given. Cached results are kept under the
canonical form.
-/

namespace SalesQuery

open Json (Value)

/-- The filter that stands for the first day. -/
def firstDayFilter : String := "data_venda_gte"

/-- The filter that stands for the last day. -/
def lastDayFilter : String := "data_venda_lte"

/-- Trims the tokens and keeps the first of equal ones. -/
def distinctTokens (tokens : List String) : List String :=
  (tokens.foldl (fun seen token =>
    let token := Text.trim token
    if token ∈ seen then seen else token :: seen) []).reverse

/-- The day that a date filter names. -/
def filterDay (field : String) : FilterInput → Except RequestFault Date
  | .scalar (.string raw) =>
    match Date.ofFilterText? raw with
    | some date => .ok date
    | none => .error (.filterValue field (.notADate raw))
  | _ => .error (.filterValue field .dateExpected)

namespace QueryRequest

/-- The range of days that the two date filters stand for, or nothing if there are none. -/
def filterRange (r : QueryRequest) : Except RequestFault (Option DateRange) := do
  let first := r.filters.get? firstDayFilter
  let last := r.filters.get? lastDayFilter
  if first.isNone && last.isNone then return none
  let start ← first.mapM (filterDay firstDayFilter)
  let stop ← last.mapM (filterDay lastDayFilter)
  return some ⟨start, stop⟩

/-- The canonical form of a request. The date filters are removed in any case, and are looked at
only if no range of days is given. -/
def normalize (r : QueryRequest) : Except RequestFault QueryRequest := do
  let dateRange ← match r.dateRange with
    | some range => pure (some range)
    | none => r.filterRange
  return { r with
    metrics := distinctTokens r.metrics
    dimensions := distinctTokens r.dimensions
    filters := (r.filters.erase firstDayFilter).erase lastDayFilter
    dateRange }

end QueryRequest

end SalesQuery
