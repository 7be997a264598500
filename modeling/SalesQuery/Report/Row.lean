import SalesQuery.Json.Decode

/-!
# Rows

A row of a result: values under the names of columns. A report takes a number from a column, and
zero where there is none.
-/

namespace SalesQuery

open Json (Value Decoder)

/-- A row of a result. -/
abbrev Row := Dictionary Value

namespace Row

/-- A row as a JSON object. -/
def toJson (r : Row) : Value := .object r.entries

/-- Reads a row. -/
def decoder : Decoder Row := Decoder.dictionary Decoder.value

/-- The number in a column of a row that may be missing, or zero. -/
def number (row : Option Row) (column : String) : Binary64 :=
  ((row.bind fun r => r.get? column).bind Value.binary64?).getD (.zero false)

/-- The count in a column of a row that may be missing, or zero. A number that is no count is cut
off after the point. -/
def count (row : Option Row) (column : String) : Int :=
  match row.bind fun r => r.get? column with
  | some v => (v.int64? <|> v.binary64?.map Binary64.toInt64).getD 0
  | none => 0

end Row

end SalesQuery
