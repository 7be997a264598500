import SalesQuery.Catalog.Basic
import SalesQuery.Json.Value

/-!
# Catalog entries as JSON
-/

namespace SalesQuery

open Json (Value)

/-- A kind of join by its name. -/
def JoinKind.toJson : JoinKind → Value
  | .inner => .string "inner"
  | .left => .string "left"

/-- A type of filter values by its name. -/
def ValueKind.toJson : ValueKind → Value
  | .any => .string "any"
  | .date => .string "date"

/-- The columns of a join of many rows per sale. -/
def FanOut.toJson (f : FanOut) : Value :=
  .ofMembers [("outer", .string f.outer), ("inner", .string f.inner)]

/-- A join with all its parts. -/
def Join.toJson (j : Join) : Value :=
  .ofMembers [("table", .string j.table), ("alias", .string j.aliasName),
    ("on_condition", .string j.condition), ("kind", j.kind.toJson),
    ("depends_on", .ofOption .string j.dependsOn), ("fan_out", .ofOption FanOut.toJson j.fanOut)]

/-- A metric with all its parts. -/
def Metric.toJson (m : Metric) : Value :=
  .ofMembers [("name", .string m.name), ("sql_expression", .string m.expression),
    ("required_join", .ofOption .string m.join)]

/-- A dimension with all its parts. -/
def Dimension.toJson (d : Dimension) : Value :=
  .ofMembers [("name", .string d.name), ("sql_expression", .string d.expression),
    ("required_join", .ofOption .string d.join), ("value_kind", d.kind.toJson)]

/-- What a filter name stands for. -/
def FilterField.toJson (f : FilterField) : Value :=
  .ofMembers [("sql_expression", .string f.expression),
    ("required_join", .ofOption .string f.join), ("value_kind", f.kind.toJson)]

end SalesQuery
