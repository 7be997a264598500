import SalesQuery.Calendar.Date
import SalesQuery.Json.Value

/-!
# Scalars

The values that a request brings into a query. A scalar is only ever bound as a parameter; no part
of it becomes SQL text.
-/

namespace SalesQuery

open Json (Value)

/-- A value with the type it is bound as. -/
inductive Scalar where
  /-- A text. -/
  | text (s : String)
  /-- An integer of 64 bits. -/
  | int (n : Int)
  /-- A double. -/
  | float (x : Binary64)
  /-- A truth value. -/
  | bool (b : Bool)
  /-- A day. -/
  | date (d : Date)
deriving DecidableEq

namespace Scalar

/-- The scalar as plain JSON. -/
def toJson : Scalar → Value
  | .text s => .string s
  | .int n => .int n
  | .float x => .float x
  | .bool b => .bool b
  | .date d => .string d.text

/-- The name of the type that a scalar is bound as. -/
def typeName : Scalar → String
  | .text _ => "text"
  | .int _ => "int"
  | .float _ => "float"
  | .bool _ => "bool"
  | .date _ => "date"

/-- The scalar as JSON with the name of its type. -/
def toTaggedJson (s : Scalar) : Value :=
  .ofMembers [("t", .string s.typeName), ("v", s.toJson)]

end Scalar

end SalesQuery
