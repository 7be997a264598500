import SalesQuery.Sql.Statement

/-!
# Join plans

A `JoinPlan` is the list of joins of a statement, in the order of their first use and each alias
once. A filter over a join that can match several rows per sale, and that the statement does not
have yet, is moved into a semi-join on the sale, so that it does not multiply sales.
-/

namespace SalesQuery

/-- What a query names and the catalog does not have. -/
inductive MissingEntry where
  /-- A dimension. -/
  | dimension (name : String)
  /-- A metric. -/
  | metric (name : String)
  /-- A join that an expression needs. -/
  | join (aliasName : String)
  /-- The field of a filter. -/
  | filterField (name : String)
deriving DecidableEq, Repr

/-- The missing entry in words. -/
def MissingEntry.message : MissingEntry → String
  | .dimension name => "dimension '" ++ name ++ "' is not in the catalog"
  | .metric name => "metric '" ++ name ++ "' is not in the catalog"
  | .join aliasName => "join alias '" ++ aliasName ++ "' is not in the catalog"
  | .filterField name => "filter field '" ++ name ++ "' is not in the catalog"

/-- The joins of a statement, in order. -/
abbrev JoinPlan := List Join

namespace JoinPlan

/-- Whether the plan joins an alias. -/
def joins (plan : JoinPlan) (aliasName : String) : Bool := plan.any fun j => j.aliasName = aliasName

/-- Appends the joins of a chain whose aliases are not joined yet. -/
def extend (plan : JoinPlan) (chain : List Join) : JoinPlan :=
  chain.foldl (fun plan join => if plan.joins join.aliasName then plan else plan ++ [join]) plan

/-- The chain of joins that reaches an alias. -/
def chain (c : Catalog) (aliasName : String) : Except MissingEntry (List Join) :=
  match c.joinChain? aliasName with
  | some joins => .ok joins
  | none => .error (.join aliasName)

/-- The plan that also joins what an expression needs. -/
def require (c : Catalog) (plan : JoinPlan) : Option String → Except MissingEntry JoinPlan
  | none => .ok plan
  | some aliasName => do return plan.extend (← chain c aliasName)

/-- Splits a chain at its first join that can match several rows per sale and is not in the plan:
the joins before it, its key, the join itself and the joins after it. -/
def splitFanOut (plan : JoinPlan) : List Join → Option (List Join × FanOut × Join × List Join)
  | [] => none
  | join :: rest =>
    match join.fanOut with
    | some key =>
      if plan.joins join.aliasName then (splitFanOut plan rest).map fun s => (join :: s.1, s.2)
      else some ([], key, join, rest)
    | none => (splitFanOut plan rest).map fun s => (join :: s.1, s.2)

/-- Places the condition of a filter. It stays as it is if the plan can join all that its field
needs; otherwise the chain before the first join of many rows is joined, and the rest goes into a
semi-join. -/
def place (c : Catalog) (plan : JoinPlan) (needed : Option String) (predicate : Predicate) :
    Except MissingEntry (JoinPlan × Predicate) :=
  match needed with
  | none => .ok (plan, predicate)
  | some aliasName => do
    let chain ← chain c aliasName
    match plan.splitFanOut chain with
    | none => return (plan.extend chain, predicate)
    | some (before, key, root, rest) =>
      return (plan.extend before, .semiJoin key root rest predicate)

end JoinPlan

end SalesQuery
