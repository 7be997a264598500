import SalesQuery.Report.Rounding
import SalesQuery.Report.Row

/-!
# Comparison of periods

A metric of the base period is set against the same metric of another: the difference, the change in
percent relative to the other period, and a trend.
-/

namespace SalesQuery

open Json (Value Decoder)

/-- The direction in which a metric changes. -/
inductive Trend where
  /-- It grows. -/
  | up
  /-- It shrinks. -/
  | down
  /-- It changes by less than one percent. -/
  | neutral
deriving DecidableEq, Repr

/-- A metric in two periods. -/
structure MetricComparison (α : Type) where
  /-- The name of the metric. -/
  name : String
  /-- The value in the base period. -/
  base : α
  /-- The value in the other period. -/
  compare : α
  /-- The difference. -/
  absoluteChange : α
  /-- The change in percent, to two decimal places. -/
  percentageChange : α
  /-- The trend. -/
  trend : Trend

namespace MetricComparison

variable {α : Type} [Quantity α]

/-- The change in percent; zero if there is nothing to relate it to. -/
def percentage (base compare : α) : α :=
  if Quantity.isZero compare then Quantity.ofInt 0
  else (base - compare) / compare * Quantity.ofInt 100

/-- The trend of a change in percent. -/
def trendOf (percentage : α) : Trend :=
  if Quantity.lt (Quantity.abs percentage) (Quantity.ofInt 1 : α) then .neutral
  else if Quantity.lt (Quantity.ofInt 0 : α) percentage then .up
  else .down

/-- The comparison of two values of a metric. The trend is that of the change before rounding. -/
def ofValues (name : String) (base compare : α) : MetricComparison α where
  name
  base
  compare
  absoluteChange := base - compare
  percentageChange := roundTo (percentage base compare) 2
  trend := trendOf (percentage base compare)

end MetricComparison

/-- The trends by name. -/
def Trend.names : List (String × Trend) := [("up", .up), ("down", .down), ("neutral", .neutral)]

/-- The name of a trend. -/
def Trend.name : Trend → String
  | .up => "up"
  | .down => "down"
  | .neutral => "neutral"

namespace MetricComparison

/-- A comparison as JSON. -/
def toJson (c : MetricComparison Binary64) : Value :=
  .ofMembers [("metric_name", .string c.name), ("base_value", .float c.base),
    ("compare_value", .float c.compare), ("absolute_change", .float c.absoluteChange),
    ("percentage_change", .float c.percentageChange), ("trend", .string c.trend.name)]

/-- Reads a comparison. A value that is not finite was written `null` and does not read back. -/
def decoder : Decoder (MetricComparison Binary64) :=
  let zero := Binary64.zero false
  Decoder.record
    [⟨"metric_name", true, fun levels d => do
        let name ← Decoder.string levels d
        return fun c => { c with name }⟩,
      ⟨"base_value", true, fun levels d => do
        let base ← Decoder.binary64 levels d
        return fun c => { c with base }⟩,
      ⟨"compare_value", true, fun levels d => do
        let compare ← Decoder.binary64 levels d
        return fun c => { c with compare }⟩,
      ⟨"absolute_change", true, fun levels d => do
        let absoluteChange ← Decoder.binary64 levels d
        return fun c => { c with absoluteChange }⟩,
      ⟨"percentage_change", true, fun levels d => do
        let percentageChange ← Decoder.binary64 levels d
        return fun c => { c with percentageChange }⟩,
      ⟨"trend", true, fun levels d => do
        let trend ← Decoder.variant Trend.names levels d
        return fun c => { c with trend }⟩]
    ⟨"", zero, zero, zero, zero, .neutral⟩

end MetricComparison

/-- The columns that are compared, each with the name of its metric. -/
def comparedMetrics : List (String × String) :=
  [("faturamento_total", "Faturamento Total"), ("ticket_medio", "Ticket Médio"),
    ("total_vendas", "Total de Vendas"), ("clientes_unicos", "Clientes Únicos"),
    ("tempo_medio_entrega_min", "Tempo Médio de Entrega (min)")]

/-- The comparisons of two rows of aggregates. -/
def comparisons (base compare : Option Row) : List (MetricComparison Binary64) :=
  comparedMetrics.map fun (column, name) =>
    .ofValues name (Row.number base column) (Row.number compare column)

end SalesQuery
