import Mathlib.Logic.Function.Basic
import SalesQuery.Sql.Statement

/-!
# The sales that a statement keeps

Expressions and join conditions are texts of the catalog, so what they mean is left to a `Database`:
it has the rows of each table, and gives the value of an expression and the truth of a condition in
a `Scope`, which says what row each alias stands for. With it the joins and conditions of a
statement have the meaning of their SQL. A condition is never negated, so it is enough to know when
one is true: a comparison with NULL is not.
-/

namespace SalesQuery

variable {ρ ν : Type}

/-! ## Scopes -/

/-- The row that each alias stands for. -/
abbrev Scope (ρ : Type) := String → Option ρ

namespace Scope

/-- An alias stands for a row from here on. -/
def bind (scope : Scope ρ) (aliasName : String) (row : ρ) : Scope ρ :=
  Function.update scope aliasName (some row)

/-- The alias of the base table stands for a sale. -/
def ofSale (sale : ρ) : Scope ρ := bind (fun _ => none) baseAlias sale

theorem bind_of_ne (scope : Scope ρ) {aliasName other : String} (row : ρ) (h : other ≠ aliasName) :
    scope.bind aliasName row other = scope other := Function.update_of_ne h _ _

end Scope

/-! ## Joins -/

/-- The rows of the tables, and what texts of the catalog mean. -/
structure Database (ρ ν : Type) where
  /-- The rows of a table. -/
  rows : String → List ρ
  /-- The row of NULLs that stands for a missing partner. -/
  absent : String → ρ
  /-- The value of an expression; none for NULL. -/
  value : String → Scope ρ → Option ν
  /-- Whether a condition without values is true. -/
  holds : String → Scope ρ → Bool
  /-- Whether a value compares with a scalar in this way. -/
  compares : Comparison → ν → Scalar → Bool

namespace Database

variable {db : Database ρ ν} {j : Join} {joins : List Join} {scope row : Scope ρ}

/-- The rows of a table that satisfy a join's condition. -/
def partners (db : Database ρ ν) (j : Join) (scope : Scope ρ) : List (Scope ρ) :=
  ((db.rows j.table).map (scope.bind j.aliasName)).filter (db.holds j.condition)

/-- The rows after a join. -/
def join (db : Database ρ ν) (j : Join) (scope : Scope ρ) : List (Scope ρ) :=
  match j.kind, db.partners j scope with
  | .left, [] => [scope.bind j.aliasName (db.absent j.table)]
  | _, found => found

/-- The rows after some joins. -/
def joinAll (db : Database ρ ν) : List Join → Scope ρ → List (Scope ρ)
  | [], scope => [scope]
  | j :: rest, scope => (db.join j scope).flatMap (joinAll db rest)

/-- A join adds a partner, or the row of NULLs if it keeps rows without one. -/
theorem mem_join : row ∈ db.join j scope ↔
    row ∈ db.partners j scope ∨ j.kind = .left ∧ db.partners j scope = [] ∧
      row = scope.bind j.aliasName (db.absent j.table) := by
  rw [join]
  cases j.kind <;> cases db.partners j scope <;> simp

theorem mem_partners : row ∈ db.partners j scope ↔
    ∃ partner ∈ db.rows j.table, scope.bind j.aliasName partner = row ∧
      db.holds j.condition row := by
  rw [partners, List.mem_filter, List.mem_map]
  simp only [← and_assoc, exists_and_right]

/-- A join binds its own alias only. -/
theorem eq_of_mem_join {aliasName : String} (hne : aliasName ≠ j.aliasName)
    (hrow : row ∈ db.join j scope) : row aliasName = scope aliasName := by
  rcases mem_join.mp hrow with hrow | ⟨-, -, rfl⟩
  · obtain ⟨partner, -, rfl, -⟩ := mem_partners.mp hrow
    exact scope.bind_of_ne partner hne
  · exact scope.bind_of_ne _ hne

/-- Joins leave all other aliases as they are. -/
theorem eq_of_mem_joinAll {aliasName : String} (hne : ∀ j ∈ joins, aliasName ≠ j.aliasName)
    (hrow : row ∈ db.joinAll joins scope) : row aliasName = scope aliasName := by
  induction joins generalizing scope with
  | nil => rw [List.mem_singleton.mp hrow]
  | cons j joins ih =>
    obtain ⟨hj, hjoins⟩ := List.forall_mem_cons.mp hne
    obtain ⟨joined, hjoined, hrow⟩ := List.mem_flatMap.mp hrow
    rw [ih hjoins hrow, eq_of_mem_join hj hjoined]

end Database

/-! ## Subqueries -/

variable [DecidableEq ν]

namespace Database

variable {db : Database ρ ν} {key : FanOut} {root : Join} {joins : List Join}
  {scope row line : Scope ρ}

/-- A line has the key of the row outside. NULL is no key. -/
def linked (db : Database ρ ν) (key : FanOut) (scope line : Scope ρ) : Bool :=
  match db.value key.outer scope with
  | some outer => db.value key.inner line = some outer
  | none => false

/-- The rows of a subquery that have the key of the row outside. -/
def lines (db : Database ρ ν) (key : FanOut) (root : Join) (joins : List Join) (scope : Scope ρ) :
    List (Scope ρ) :=
  (((db.rows root.table).map (scope.bind root.aliasName)).flatMap (db.joinAll joins)).filter
    (db.linked key scope)

/-- A line comes from a row of the table and has the key. -/
theorem mem_lines : line ∈ db.lines key root joins scope ↔
    ∃ row ∈ db.rows root.table, line ∈ db.joinAll joins (scope.bind root.aliasName row) ∧
      db.linked key scope line := by
  rw [lines, List.mem_filter, List.mem_flatMap]
  simp only [List.mem_map, exists_exists_and_eq_and, ← and_assoc, exists_and_right]

end Database

/-- The condition of a join says that the keys agree, and the key within is a column of its
table. -/
structure Join.Restates (root : Join) (key : FanOut) (db : Database ρ ν) : Prop where
  /-- The condition holds of the rows with the key of the row outside. -/
  condition : ∀ (scope : Scope ρ) (row : ρ),
    db.holds root.condition (scope.bind root.aliasName row) =
      db.linked key scope (scope.bind root.aliasName row)
  /-- The key within depends on the row of the table only. -/
  column : ∀ scope scope' : Scope ρ, scope root.aliasName = scope' root.aliasName →
    db.value key.inner scope = db.value key.inner scope'

namespace Database

variable {db : Database ρ ν} {key : FanOut} {root : Join} {joins : List Join}
  {scope row line : Scope ρ}

/-- The lines of a subquery are the rows that come of the partners of its first table. -/
theorem mem_lines_iff_partner (h : root.Restates key db)
    (hne : ∀ j ∈ joins, root.aliasName ≠ j.aliasName) :
    line ∈ db.lines key root joins scope ↔
      ∃ partner ∈ db.partners root scope, line ∈ db.joinAll joins partner := by
  -- The later joins leave the row of the first table as it is, so the key can be read before them.
  have hlinked : ∀ row : ρ, line ∈ db.joinAll joins (scope.bind root.aliasName row) →
      db.linked key scope line = db.holds root.condition (scope.bind root.aliasName row) := by
    intro row hline
    rw [h.condition, linked, linked, h.column _ _ (eq_of_mem_joinAll hne hline)]
  rw [mem_lines]
  constructor
  · rintro ⟨row, hrow, hline, hkey⟩
    exact ⟨_, mem_partners.mpr ⟨row, hrow, rfl, hlinked row hline ▸ hkey⟩, hline⟩
  · rintro ⟨_, hpartner, hline⟩
    obtain ⟨row, hrow, rfl, hkey⟩ := mem_partners.mp hpartner
    exact ⟨row, hrow, hline, (hlinked row hline).trans hkey⟩

/-- Joined as they stand, the joins of a subquery make its lines, and beside them at most the rows
without a partner. -/
theorem mem_joinAll_cons (h : root.Restates key db)
    (hne : ∀ j ∈ joins, root.aliasName ≠ j.aliasName) :
    row ∈ db.joinAll (root :: joins) scope ↔
      row ∈ db.lines key root joins scope ∨
        root.kind = .left ∧ db.partners root scope = [] ∧
          row ∈ db.joinAll joins (scope.bind root.aliasName (db.absent root.table)) := by
  rw [mem_lines_iff_partner h hne, joinAll, List.mem_flatMap]
  constructor
  · rintro ⟨joined, hjoined, hrow⟩
    rcases mem_join.mp hjoined with hjoined | ⟨hleft, hnone, rfl⟩
    · exact .inl ⟨joined, hjoined, hrow⟩
    · exact .inr ⟨hleft, hnone, hrow⟩
  · rintro (⟨partner, hpartner, hrow⟩ | ⟨hleft, hnone, hrow⟩)
    · exact ⟨partner, mem_join.mpr (.inl hpartner), hrow⟩
    · exact ⟨_, mem_join.mpr (.inr ⟨hleft, hnone, rfl⟩), hrow⟩

end Database

/-! ## Conditions -/

/-- Whether a condition is true of a row. -/
def Predicate.holds (db : Database ρ ν) (scope : Scope ρ) : Predicate → Bool
  | .raw sql => db.holds sql scope
  | .compare expression op v => (db.value expression scope).any (db.compares op · v)
  | .inList expression values =>
    (db.value expression scope).any fun a => values.any (db.compares .eq a)
  | .semiJoin key root joins predicate =>
    (db.lines key root joins scope).any fun line => predicate.holds db line

theorem Predicate.holds_semiJoin {db : Database ρ ν} {scope : Scope ρ} {key : FanOut} {root : Join}
    {joins : List Join} {p : Predicate} :
    (semiJoin key root joins p).holds db scope ↔
      ∃ line ∈ db.lines key root joins scope, p.holds db line := by
  rw [holds, List.any_eq_true]

namespace Statement

/-- The rows that a statement makes of a sale. -/
def rows (s : Statement) (db : Database ρ ν) (sale : ρ) : List (Scope ρ) :=
  db.joinAll s.joins (.ofSale sale)

/-- Whether a sale counts: some row that is made of it satisfies all conditions. -/
def keeps (s : Statement) (db : Database ρ ν) (sale : ρ) : Bool :=
  (s.rows db sale).any fun row => s.predicates.all (·.holds db row)

theorem keeps_iff {s : Statement} {db : Database ρ ν} {sale : ρ} :
    s.keeps db sale ↔ ∃ row ∈ s.rows db sale, ∀ p ∈ s.predicates, p.holds db row := by
  rw [keeps, List.any_eq_true]
  simp only [List.all_eq_true]

end Statement

end SalesQuery
