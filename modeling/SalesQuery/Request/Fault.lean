import SalesQuery.Calendar.Range

/-!
# Faults of a request

The reasons for which a request is refused, and their wording.
-/

namespace SalesQuery

/-- What is wrong with the value of a filter. -/
inductive ValueFault where
  /-- A date filter has a value that is no text. -/
  | dateExpected
  /-- A text is not a date. -/
  | notADate (raw : String)
  /-- The value is `null`. -/
  | null
  /-- The value is a list or an object. -/
  | notScalar
  /-- A list is too long. -/
  | tooManyValues
  /-- A map of operators is empty. -/
  | noOperator
  /-- An operator, in lower case, is not known. -/
  | unknownOperator (op : String)
  /-- The operand of the operator `in` is no list. -/
  | listExpected
deriving DecidableEq, Repr

/-- The most values that a list filter may have. -/
def maxListValues : Nat := 200

/-- The fault in words. -/
def ValueFault.message : ValueFault → String
  | .dateExpected => "expected a YYYY-MM-DD string"
  | .notADate raw => "'" ++ raw ++ "' is not a YYYY-MM-DD date"
  | .null => "null is not a filter value"
  | .notScalar => "expected a scalar value"
  | .tooManyValues => "list filters support at most " ++ toString maxListValues ++ " values"
  | .noOperator => "operator map is empty"
  | .unknownOperator op => "unsupported operator '" ++ op ++ "'"
  | .listExpected => "operator 'in' expects a list"

/-- Why a request is refused. -/
inductive RequestFault where
  /-- A metric token is no metric of the catalog and no custom aggregate. -/
  | unknownMetric (token : String)
  /-- A dimension token is no dimension of the catalog. -/
  | unknownDimension (token : String)
  /-- A filter is on a field that the catalog does not have. -/
  | unknownFilterField (field : String)
  /-- A filter has a value that cannot be bound. -/
  | filterValue (field : String) (fault : ValueFault)
  /-- A term of the order is on a column that is not selected. -/
  | unknownOrderField (field : String)
  /-- A term of the order has an unknown direction. -/
  | orderDirection (direction : String)
  /-- Two selected columns have the same name. -/
  | duplicateColumn (name : String)
  /-- Nothing is selected. -/
  | emptySelection
  /-- The limit is out of its range. -/
  | limitOutOfRange (limit max : Int)
  /-- The offset is negative. -/
  | negativeOffset (offset : Int)
  /-- The range of days of a query is in the wrong order. -/
  | invertedRange (days : Inversion)
  /-- The range of days of a dashboard is in the wrong order. -/
  | invertedReport (days : Inversion)
  /-- A period of a comparison is in the wrong order. -/
  | invertedPeriod (days : Inversion)
deriving DecidableEq

/-- The fault in words. -/
def RequestFault.message : RequestFault → String
  | .unknownMetric token => "unknown metric '" ++ token ++ "'"
  | .unknownDimension token => "unknown dimension '" ++ token ++ "'"
  | .unknownFilterField field => "unsupported filter field '" ++ field ++ "'"
  | .filterValue field fault => "invalid value for filter '" ++ field ++ "': " ++ fault.message
  | .unknownOrderField field => "cannot order by '" ++ field ++ "': not a selected column"
  | .orderDirection direction =>
    "invalid order direction '" ++ direction ++ "' (expected asc or desc)"
  | .duplicateColumn name => "column '" ++ name ++ "' is selected more than once"
  | .emptySelection => "at least one metric or dimension is required"
  | .limitOutOfRange limit max => "limit " ++ toString limit ++ " outside 1..=" ++ toString max
  | .negativeOffset offset => "offset must be non-negative, got " ++ toString offset
  | .invertedRange days => "invalid date range: " ++ days.rangeText
  | .invertedReport days => days.rangeText
  | .invertedPeriod days => days.periodText

end SalesQuery
