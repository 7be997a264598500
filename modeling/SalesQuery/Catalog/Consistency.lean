import SalesQuery.Catalog.Basic

/-!
# Consistency of a catalog

`Catalog.fault?` finds the first reason why a catalog cannot be used: an alias or name that occurs
twice, an alias that hides the base table, a reference to a join that does not exist, or joins that
depend on each other in a circle.
-/

namespace SalesQuery

/-- Why a catalog cannot be used. -/
inductive CatalogFault where
  /-- Two entries share a name. -/
  | duplicate (name : String)
  /-- An entry needs a join that is not declared. -/
  | unknownJoin (name aliasName : String)
  /-- A join takes the alias of the base table. -/
  | baseAliasCollision (aliasName : String)
  /-- Following the dependencies of a join leads to no end. -/
  | cycle (aliasName : String)
deriving DecidableEq, Repr

/-- The fault in words. -/
def CatalogFault.message : CatalogFault → String
  | .duplicate name => "duplicate catalog entry '" ++ name ++ "'"
  | .unknownJoin name aliasName => "'" ++ name ++ "' requires unknown join alias '" ++ aliasName ++ "'"
  | .baseAliasCollision aliasName => "join alias '" ++ aliasName ++ "' collides with the base table alias"
  | .cycle aliasName => "join dependency cycle through alias '" ++ aliasName ++ "'"

namespace Catalog

/-- Aliases are new, one after the other, and none is that of the base table. -/
def checkAliases (seen : List String) : List Join → Except CatalogFault Unit
  | [] => .ok ()
  | join :: rest =>
    if join.aliasName = baseAlias then .error (.baseAliasCollision join.aliasName)
    else if join.aliasName ∈ seen then .error (.duplicate join.aliasName)
    else checkAliases (join.aliasName :: seen) rest

/-- A required join is declared. -/
def checkReference (aliases : List String) (name : String) :
    Option String → Except CatalogFault Unit
  | none => .ok ()
  | some aliasName => if aliasName ∈ aliases then .ok () else .error (.unknownJoin name aliasName)

/-- Every dependency is declared and every chain of dependencies ends. -/
def checkDependencies (c : Catalog) : Except CatalogFault Unit :=
  c.joins.forM fun join => do
    checkReference (c.joins.map (·.aliasName)) join.aliasName join.dependsOn
    if (c.joinChain? join.aliasName).isNone then throw (.cycle join.aliasName)

/-- Names are new, one after the other, and the join of each is declared. -/
def checkNames (aliases : List String) (seen : List String) :
    List (String × Option String) → Except CatalogFault Unit
  | [] => .ok ()
  | (name, join) :: rest => do
    if name ∈ seen then throw (.duplicate name)
    checkReference aliases name join
    checkNames aliases (name :: seen) rest

/-- The names that may be selected, each with the join it needs: metrics, then dimensions. -/
def selectable (c : Catalog) : List (String × Option String) :=
  c.metrics.map (fun m => (m.name, m.join)) ++ c.dimensions.map (fun d => (d.name, d.join))

/-- No filter column has the name of a dimension, and the join of each is declared. -/
def checkColumns (c : Catalog) : Except CatalogFault Unit :=
  c.filterColumns.forM fun column => do
    if (c.dimension? column.name).isSome then throw (.duplicate column.name)
    checkReference (c.joins.map (·.aliasName)) column.name column.join

/-- Looks for a fault: among the aliases, the dependencies, the names and the filter columns, in
this order. -/
def check (c : Catalog) : Except CatalogFault Unit := do
  checkAliases [] c.joins
  checkDependencies c
  checkNames (c.joins.map (·.aliasName)) [] c.selectable
  checkColumns c

/-- A catalog without a fault. -/
def Consistent (c : Catalog) : Prop := c.check = .ok ()

end Catalog

end SalesQuery
