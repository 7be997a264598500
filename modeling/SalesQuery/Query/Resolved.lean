import SalesQuery.Calendar.Range
import SalesQuery.Sql.Statement

/-!
# Resolved queries

A `ResolvedQuery` is a request whose every token stands for something: names are names of the
catalog, custom aggregates have passed the grammar, and filter values are scalars.
-/

namespace SalesQuery

open Json (Value)

/-- A custom aggregate that passed the grammar. -/
structure CustomAggregate where
  /-- The text as it goes into the statement. -/
  text : String
  /-- The name of its column. -/
  aliasName : String
  /-- The table alias that qualifies its column, in lower case. -/
  qualifier : Option String
deriving DecidableEq, Repr

/-- A selected metric. -/
inductive MetricSelection where
  /-- A metric of the catalog. -/
  | catalog (name : String)
  /-- A custom aggregate. -/
  | custom (aggregate : CustomAggregate)
deriving DecidableEq, Repr

/-- The name of the metric's column. -/
def MetricSelection.outputName : MetricSelection → String
  | .catalog name => name
  | .custom aggregate => aggregate.aliasName

/-- A condition on the value of a field. -/
inductive FilterCondition where
  /-- The value is the scalar. -/
  | equals (value : Scalar)
  /-- The value is one of the scalars. -/
  | oneOf (values : List Scalar)
  /-- The value is above or below the scalar. -/
  | compare (op : Comparison) (value : Scalar)
deriving DecidableEq

/-- A condition on a named field. -/
structure Filter where
  /-- The name of the field. -/
  field : String
  /-- The condition. -/
  condition : FilterCondition
deriving DecidableEq

/-- A request with every token resolved. -/
structure ResolvedQuery where
  /-- The names of the dimensions, each once. -/
  dimensions : List String
  /-- The metrics, each once. -/
  metrics : List MetricSelection
  /-- The filters. -/
  filters : List Filter
  /-- The range of days. -/
  dateRange : Option DateRange
  /-- The order of the rows. -/
  orderBy : List OrderTerm
  /-- The greatest number of rows. -/
  limit : Option Int
  /-- The number of rows to pass over. -/
  offset : Option Int
deriving DecidableEq

/-! ## JSON -/

/-- A custom aggregate with all its parts. -/
def CustomAggregate.toJson (a : CustomAggregate) : Value :=
  .ofMembers [("text", .string a.text), ("alias", .string a.aliasName),
    ("qualifier", .ofOption .string a.qualifier)]

/-- A selected metric, under the name of its kind. -/
def MetricSelection.toJson : MetricSelection → Value
  | .catalog name => .ofMembers [("catalog", .string name)]
  | .custom aggregate => .ofMembers [("custom", aggregate.toJson)]

/-- The name of a comparison. -/
def Comparison.name : Comparison → String
  | .eq => "eq"
  | .gt => "gt"
  | .gte => "gte"
  | .lt => "lt"
  | .lte => "lte"

/-- A condition with the name of its kind. -/
def FilterCondition.toJson : FilterCondition → Value
  | .equals v => .ofMembers [("kind", .string "equals"), ("value", v.toJson)]
  | .oneOf l => .ofMembers [("kind", .string "in"), ("value", .array (l.map Scalar.toJson))]
  | .compare op v =>
    .ofMembers [("kind", .string "compare"), ("value", .array [.string op.name, v.toJson])]

/-- A filter. -/
def Filter.toJson (f : Filter) : Value :=
  .ofMembers [("field", .string f.field), ("value", f.condition.toJson)]

/-- A term of the order. -/
def OrderTerm.toJson (t : OrderTerm) : Value :=
  let direction := match t.direction with
    | .asc => "asc"
    | .desc => "desc"
  .ofMembers [("field", .string t.field), ("direction", .string direction)]

/-- A resolved query with all its parts. -/
def ResolvedQuery.toJson (q : ResolvedQuery) : Value :=
  .ofMembers
    [("dimensions", .strings q.dimensions), ("metrics", .array (q.metrics.map (·.toJson))),
      ("filters", .array (q.filters.map Filter.toJson)),
      ("date_range", .ofOption DateRange.toJson q.dateRange),
      ("order_by", .array (q.orderBy.map OrderTerm.toJson)),
      ("limit", .ofOption .int q.limit), ("offset", .ofOption .int q.offset)]

end SalesQuery
