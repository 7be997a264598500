/-!
# The catalog

A `Catalog` lists what a request may name: metrics, dimensions and filter columns over the table of
sales, and the joins that reach the other tables. Every SQL fragment that a named token stands for
comes from here. A name is looked up as the first entry that has it.
-/

namespace SalesQuery

/-- The table that every query starts from. -/
def baseTable : String := "sales"

/-- The alias of the base table. -/
def baseAlias : String := "s"

/-- The condition that restricts every query to completed sales. -/
def basePredicate : String := "s.sale_status_desc = 'COMPLETED'"

/-- The day of a sale. -/
def saleDate : String := "DATE(s.created_at)"

/-- How a join treats sales without a partner. -/
inductive JoinKind where
  /-- Drops them. -/
  | inner
  /-- Keeps them. -/
  | left
deriving DecidableEq, Repr

/-- The SQL keyword of a kind of join. -/
def JoinKind.keyword : JoinKind → String
  | .inner => "JOIN"
  | .left => "LEFT JOIN"

/-- The type that a filter value is bound as. -/
inductive ValueKind where
  /-- The type of the JSON value. -/
  | any
  /-- A date, written as a text. -/
  | date
deriving DecidableEq, Repr

/-- The columns that tie a join of many rows per sale back to the sale. -/
structure FanOut where
  /-- The column of the query outside. -/
  outer : String
  /-- The column of the joined table. -/
  inner : String
deriving DecidableEq, Repr

/-- A table that can be joined. -/
structure Join where
  /-- The table's name. -/
  table : String
  /-- The alias under which its columns are named. -/
  aliasName : String
  /-- The join condition. -/
  condition : String
  /-- How sales without a partner are treated. -/
  kind : JoinKind := .inner
  /-- The alias that the condition refers to, joined first. -/
  dependsOn : Option String := none
  /-- Present if the join can match several rows per sale. -/
  fanOut : Option FanOut := none
deriving DecidableEq, Repr

/-- An aggregate that a request may select by name. -/
structure Metric where
  /-- The name, which is also the name of the column. -/
  name : String
  /-- The SQL expression. -/
  expression : String
  /-- The alias that the expression needs joined. -/
  join : Option String := none
deriving DecidableEq, Repr

/-- A grouping column that a request may select by name. -/
structure Dimension where
  /-- The name, which is also the name of the column. -/
  name : String
  /-- The SQL expression. -/
  expression : String
  /-- The alias that the expression needs joined. -/
  join : Option String := none
  /-- The type of filter values on the dimension. -/
  kind : ValueKind := .any
deriving DecidableEq, Repr

/-- A column that may be filtered on but not selected. -/
structure FilterColumn where
  /-- The name. -/
  name : String
  /-- The SQL expression. -/
  expression : String
  /-- The alias that the expression needs joined. -/
  join : Option String := none
deriving DecidableEq, Repr

/-- What a filter name stands for. -/
structure FilterField where
  /-- The SQL expression. -/
  expression : String
  /-- The alias that the expression needs joined. -/
  join : Option String
  /-- The type of the filter's values. -/
  kind : ValueKind
deriving DecidableEq, Repr

/-- The metrics, dimensions, filter columns and joins that requests are resolved against. -/
structure Catalog where
  /-- The metrics. -/
  metrics : List Metric
  /-- The dimensions. -/
  dimensions : List Dimension
  /-- The filter columns. -/
  filterColumns : List FilterColumn
  /-- The joins. -/
  joins : List Join
deriving DecidableEq, Repr

/-- The chain from an alias back to a join without dependency, of at most `limit` joins, the alias
itself first. -/
def chainBack (joins : List Join) : Nat → String → Option (List Join)
  | 0, _ => none
  | limit + 1, aliasName => do
    let join ← joins.find? fun j => j.aliasName = aliasName
    match join.dependsOn with
    | none => return [join]
    | some parent => return join :: (← chainBack joins limit parent)

namespace Catalog

/-- The metric of a name. -/
def metric? (c : Catalog) (name : String) : Option Metric :=
  c.metrics.find? fun m => m.name = name

/-- The dimension of a name. -/
def dimension? (c : Catalog) (name : String) : Option Dimension :=
  c.dimensions.find? fun d => d.name = name

/-- The join of an alias. -/
def join? (c : Catalog) (aliasName : String) : Option Join :=
  c.joins.find? fun j => j.aliasName = aliasName

/-- Whether columns may be qualified by the alias. -/
def knowsAlias (c : Catalog) (aliasName : String) : Bool :=
  aliasName = baseAlias || (c.join? aliasName).isSome

/-- What a filter name stands for. Dimensions come before filter columns. -/
def filterField? (c : Catalog) (name : String) : Option FilterField :=
  match c.dimension? name with
  | some d => some ⟨d.expression, d.join, d.kind⟩
  | none =>
    (c.filterColumns.find? fun column => column.name = name).map fun column =>
      ⟨column.expression, column.join, .any⟩

/-- The joins that reach an alias, dependencies first. The base table needs none. A chain of more
joins than there are repeats one, and then never ends. -/
def joinChain? (c : Catalog) (aliasName : String) : Option (List Join) :=
  if aliasName = baseAlias then some []
  else (chainBack c.joins (c.joins.length + 1) aliasName).map List.reverse

end Catalog

end SalesQuery
