import SalesQuery.Query.JoinPlan
import SalesQuery.Query.Resolved

/-!
# Compiling queries

A resolved query becomes a statement: the columns of its dimensions and metrics, the joins they
need, and the conditions of its range of days and its filters on top of the one that restricts every
query to completed sales. Rows are grouped by the dimensions.
-/

namespace SalesQuery

namespace ResolvedQuery

/-- The plan and the columns after those of the dimensions. -/
def planDimensions (c : Catalog) (plan : JoinPlan) :
    List String → Except MissingEntry (JoinPlan × List SelectItem)
  | [] => .ok (plan, [])
  | name :: rest => do
    let some d := c.dimension? name | throw (.dimension name)
    let plan ← plan.require c d.join
    let (plan, columns) ← planDimensions c plan rest
    return (plan, .aliased d.expression d.name :: columns)

/-- The plan and the columns after those of the metrics. -/
def planMetrics (c : Catalog) (plan : JoinPlan) :
    List MetricSelection → Except MissingEntry (JoinPlan × List SelectItem)
  | [] => .ok (plan, [])
  | .catalog name :: rest => do
    let some m := c.metric? name | throw (.metric name)
    let plan ← plan.require c m.join
    let (plan, columns) ← planMetrics c plan rest
    return (plan, .aliased m.expression m.name :: columns)
  | .custom aggregate :: rest => do
    let plan ← plan.require c aggregate.qualifier
    let (plan, columns) ← planMetrics c plan rest
    return (plan, .verbatim aggregate.text :: columns)

/-- The condition on an expression. -/
def conditionPredicate (expression : String) : FilterCondition → Predicate
  | .equals v => .compare expression .eq v
  | .oneOf values => .inList expression values
  | .compare op v => .compare expression op v

/-- The plan and the conditions after those of the filters. -/
def planFilters (c : Catalog) (plan : JoinPlan) :
    List Filter → Except MissingEntry (JoinPlan × List Predicate)
  | [] => .ok (plan, [])
  | f :: rest => do
    let some field := c.filterField? f.field | throw (.filterField f.field)
    let (plan, predicate) ←
      plan.place c field.join (conditionPredicate field.expression f.condition)
    let (plan, predicates) ← planFilters c plan rest
    return (plan, predicate :: predicates)

/-- The conditions of a range of days. -/
def rangePredicates (range : DateRange) : List Predicate :=
  (range.start.map fun d => Predicate.compare saleDate .gte (.date d)).toList
    ++ (range.stop.map fun d => Predicate.compare saleDate .lte (.date d)).toList

/-- The statement of a query. -/
def statement (c : Catalog) (q : ResolvedQuery) : Except MissingEntry Statement := do
  let (plan, dimensionColumns) ← planDimensions c [] q.dimensions
  let (plan, metricColumns) ← planMetrics c plan q.metrics
  let (plan, filterPredicates) ← planFilters c plan q.filters
  return {
    columns := dimensionColumns ++ metricColumns
    joins := plan
    predicates := .raw basePredicate
      :: ((q.dateRange.map rangePredicates).getD [] ++ filterPredicates)
    grouped := q.dimensions.length
    orderBy := q.orderBy
    limit := q.limit
    offset := q.offset }

/-- The text and parameters of a query. -/
def compile (c : Catalog) (q : ResolvedQuery) : Except MissingEntry CompiledQuery :=
  Statement.compiled <$> q.statement c

end ResolvedQuery

end SalesQuery
