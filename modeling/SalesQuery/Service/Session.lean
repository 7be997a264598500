import SalesQuery.Cache.ResultCache
import SalesQuery.Report.Row
import SalesQuery.Service.Fault
import SalesQuery.Sql.Fragment

/-!
# Sessions

What the service changes as it answers: the cache, and the database behind it. Every statement that
is executed is recorded, in order.
-/

namespace SalesQuery

/-- Executes a statement on a database in some state: its rows, or nothing if it fails. -/
abbrev Executor (σ : Type) := CompiledQuery → σ → Option (List Row) × σ

/-- A database with the statements executed on it. -/
structure Backend (σ : Type) where
  /-- The state of the database. -/
  database : σ
  /-- The statements executed so far. -/
  statements : List CompiledQuery := []

/-- The changing parts of the service. -/
structure Session (σ : Type) where
  /-- The cache of results. -/
  cache : ResultCache
  /-- The database. -/
  backend : Backend σ

/-- An answer of the service, or the reason why there is none, with the session after it. An overflow
leaves neither. -/
abbrev Reply (σ α : Type) := Checked (Except ServiceFault α) × Session σ

/-- Executes a statement and records it. -/
def Backend.fetch {σ : Type} (execute : Executor σ) (query : CompiledQuery) (b : Backend σ) :
    Except ServiceFault (List Row) × Backend σ :=
  let (rows, database) := execute query b.database
  let b : Backend σ := ⟨database, b.statements ++ [query]⟩
  match rows with
  | some rows => (.ok rows, b)
  | none => (.error .database, b)

/-- Executes two statements, the second only if the first does not fail. -/
def Backend.fetchBoth {σ : Type} (execute : Executor σ) (first second : CompiledQuery)
    (b : Backend σ) : Except ServiceFault (List Row × List Row) × Backend σ :=
  match b.fetch execute first with
  | (.error e, b) => (.error e, b)
  | (.ok rows, b) =>
    let (others, b) := b.fetch execute second
    (others.map (rows, ·), b)

/-- Returns a kept result, or computes it on the database and keeps it. -/
def Session.getOrCompute {σ α : Type} (s : Session σ) (m : Moment) (codec : Codec α)
    (scope : String) (payload : Json.Value)
    (compute : Backend σ → Except ServiceFault α × Backend σ) : Reply σ (α × Bool) :=
  let (result, cache, backend) :=
    s.cache.getOrCompute m codec scope (some payload) none compute s.backend
  (result, ⟨cache, backend⟩)

end SalesQuery
