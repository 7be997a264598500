import SalesQuery.Calendar.Range

/-!
# Requests

An analytics request names metrics and dimensions, filters, an order and a range of rows. Nothing in
it has been looked up yet: tokens are texts and filter values are JSON.
-/

namespace SalesQuery

open Json (Value)

/-- A filter as it is given: a list, a map of operators or a single value. -/
inductive FilterInput where
  /-- A list of values, one of which has to match. -/
  | list (values : List Value)
  /-- Values under the names of operators, all of which have to hold. -/
  | operators (values : Dictionary Value)
  /-- A value that has to match. -/
  | scalar (value : Value)

/-- A term of the order as it is given. -/
structure OrderInput where
  /-- The name of a column. -/
  field : String
  /-- The direction, if one is given. -/
  direction : Option String := none
deriving DecidableEq

/-- An analytics request. -/
structure QueryRequest where
  /-- The metric tokens. -/
  metrics : List String := []
  /-- The dimension tokens. -/
  dimensions : List String := []
  /-- The filters by the name of their field. -/
  filters : Dictionary FilterInput := ∅
  /-- The range of days. -/
  dateRange : Option DateRange := none
  /-- The order of the rows. -/
  orderBy : Option (List OrderInput) := none
  /-- The greatest number of rows. -/
  limit : Option Int := none
  /-- The number of rows to pass over. -/
  offset : Option Int := none

instance : Inhabited QueryRequest := ⟨{}⟩

end SalesQuery
