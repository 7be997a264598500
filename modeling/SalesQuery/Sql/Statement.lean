import SalesQuery.Sql.Fragment
import SalesQuery.Catalog.Basic

/-!
# Select statements

The tree of a statement over the sales and its SQL. The SQL fragments in the tree come from the
catalog or are custom aggregates that passed the grammar; values stand in it as scalars only.
-/

namespace SalesQuery

/-- A column of the result. -/
inductive SelectItem where
  /-- An expression under a name. -/
  | aliased (expression aliasName : String)
  /-- A text that carries its own name. -/
  | verbatim (text : String)
deriving DecidableEq, Repr

/-- A comparison operator. -/
inductive Comparison where
  /-- Equal. -/
  | eq
  /-- Greater. -/
  | gt
  /-- Greater or equal. -/
  | gte
  /-- Less. -/
  | lt
  /-- Less or equal. -/
  | lte
deriving DecidableEq, Repr

/-- The SQL operator. -/
def Comparison.sql : Comparison → String
  | .eq => "="
  | .gt => ">"
  | .gte => ">="
  | .lt => "<"
  | .lte => "<="

/-- A condition on rows. -/
inductive Predicate where
  /-- A condition without values. -/
  | raw (sql : String)
  /-- A comparison with a scalar. -/
  | compare (expression : String) (op : Comparison) (value : Scalar)
  /-- Membership in a list of scalars. -/
  | inList (expression : String) (values : List Scalar)
  /-- Membership of a key of the sale among the keys of the rows of `root`, with `joins` joined to
  it, that satisfy a condition. -/
  | semiJoin (key : FanOut) (root : Join) (joins : List Join) (predicate : Predicate)
deriving DecidableEq

/-- A direction of order. -/
inductive Direction where
  /-- Smallest first. -/
  | asc
  /-- Greatest first. -/
  | desc
deriving DecidableEq, Repr

/-- The SQL keyword of a direction. -/
def Direction.sql : Direction → String
  | .asc => "ASC"
  | .desc => "DESC"

/-- A term of the result's order. -/
structure OrderTerm where
  /-- The column. -/
  field : String
  /-- The direction. -/
  direction : Direction
deriving DecidableEq, Repr

/-- A select statement over the base table. -/
structure Statement where
  /-- The columns. -/
  columns : List SelectItem
  /-- The joins, in order. -/
  joins : List Join
  /-- The conditions, all of which hold. -/
  predicates : List Predicate
  /-- How many of the first columns the rows are grouped by. -/
  grouped : Nat
  /-- The order of the rows. -/
  orderBy : List OrderTerm
  /-- The greatest number of rows. -/
  limit : Option Int
  /-- The number of rows to pass over. -/
  offset : Option Int
deriving DecidableEq

/-- The SQL of a column. -/
def SelectItem.sql : SelectItem → String
  | .aliased expression aliasName => expression ++ " AS " ++ aliasName
  | .verbatim text => text

/-- The SQL of a join. -/
def Join.sql (j : Join) : String :=
  j.kind.keyword ++ " " ++ j.table ++ " " ++ j.aliasName ++ " ON " ++ j.condition

/-- The SQL of a condition. Membership in the empty list is false. -/
def Predicate.fragments : Predicate → List Fragment
  | .raw sql => [.sql sql]
  | .compare expression op value => [.sql (expression ++ " " ++ op.sql ++ " "), .bind value]
  | .inList _ [] => [.sql "FALSE"]
  | .inList expression values =>
    .sql (expression ++ " IN (")
      :: (Fragment.separated ", " (values.map fun v => [.bind v]) ++ [.sql ")"])
  | .semiJoin key root joins predicate =>
    .sql (key.outer ++ " IN (SELECT " ++ key.inner ++ " FROM " ++ root.table ++ " " ++ root.aliasName
        ++ String.join (joins.map fun j => " " ++ j.sql) ++ " WHERE ")
      :: (predicate.fragments ++ [.sql ")"])

namespace Statement

/-- The conditions as a clause; no clause without conditions. -/
def whereClause (s : Statement) : List Fragment :=
  if s.predicates.isEmpty then []
  else .sql "\nWHERE " :: Fragment.separated " AND " (s.predicates.map Predicate.fragments)

/-- The grouping as a clause over the positions of the columns, from one. -/
def groupClause (s : Statement) : String :=
  if s.grouped = 0 then ""
  else "\nGROUP BY " ++ ", ".intercalate ((List.range s.grouped).map fun i => toString (i + 1))

/-- The order as a clause. -/
def orderClause (s : Statement) : String :=
  if s.orderBy.isEmpty then ""
  else "\nORDER BY " ++ ", ".intercalate (s.orderBy.map fun t => t.field ++ " " ++ t.direction.sql)

/-- The greatest number of rows as a clause. -/
def limitClause (s : Statement) : String :=
  match s.limit with
  | some n => "\nLIMIT " ++ toString n
  | none => ""

/-- The rows to pass over as a clause; none if there is nothing to pass over. -/
def offsetClause (s : Statement) : String :=
  match s.offset with
  | some n => if 0 < n then "\nOFFSET " ++ toString n else ""
  | none => ""

/-- The SQL of the columns and tables. -/
def fromClause (s : Statement) : String :=
  "SELECT " ++ ", ".intercalate (s.columns.map SelectItem.sql)
    ++ "\nFROM " ++ baseTable ++ " " ++ baseAlias
    ++ String.join (s.joins.map fun j => "\n" ++ j.sql)

/-- The whole statement. -/
def fragments (s : Statement) : List Fragment :=
  .sql s.fromClause :: (s.whereClause
    ++ [.sql (s.groupClause ++ s.orderClause ++ s.limitClause ++ s.offsetClause)])

/-- The statement's text and parameters. -/
def compiled (s : Statement) : CompiledQuery := .ofFragments s.fragments

end Statement

end SalesQuery
