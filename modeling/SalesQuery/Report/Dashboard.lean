import SalesQuery.Report.Rounding
import SalesQuery.Report.Row

/-!
# The dashboard

Six cards over one row of aggregates. Times are given in minutes to one decimal place.
-/

namespace SalesQuery

open Json (Value Decoder)

/-- How the value of a card is shown. -/
inductive CardFormat where
  /-- As a plain number. -/
  | number
  /-- As an amount of money. -/
  | currency
  /-- As a percentage. -/
  | percentage
  /-- As a time. -/
  | duration
deriving DecidableEq, Repr

/-- The formats by name. -/
def CardFormat.names : List (String × CardFormat) :=
  [("number", .number), ("currency", .currency), ("percentage", .percentage),
    ("duration", .duration)]

/-- The name of a format. -/
def CardFormat.name : CardFormat → String
  | .number => "number"
  | .currency => "currency"
  | .percentage => "percentage"
  | .duration => "duration"

/-- A card of the dashboard. -/
structure Card where
  /-- The label. -/
  label : String
  /-- The value. -/
  value : Value
  /-- How the value is shown. -/
  format : CardFormat
  /-- The change against another period. -/
  change : Option Binary64 := none
  /-- The label of the change. -/
  changeLabel : Option String := none

namespace Card

/-- A card as JSON. -/
def toJson (c : Card) : Value :=
  .ofMembers [("label", .string c.label), ("value", c.value), ("format", .string c.format.name),
    ("change", .ofOption .float c.change), ("change_label", .ofOption .string c.changeLabel)]

/-- Reads a card. -/
def decoder : Decoder Card :=
  Decoder.record
    [⟨"label", true, fun levels d => do
        let label ← Decoder.string levels d
        return fun c => { c with label }⟩,
      ⟨"value", true, fun levels d => do
        let value ← Decoder.value levels d
        return fun c => { c with value }⟩,
      ⟨"format", true, fun levels d => do
        let format ← Decoder.variant CardFormat.names levels d
        return fun c => { c with format }⟩,
      ⟨"change", false, fun levels d => do
        let change ← Decoder.optional Decoder.binary64 levels d
        return fun c => { c with change }⟩,
      ⟨"change_label", false, fun levels d => do
        let changeLabel ← Decoder.optional Decoder.string levels d
        return fun c => { c with changeLabel }⟩]
    ⟨"", .null, .number, none, none⟩

end Card

/-- The cards over a row of aggregates, with zeros where the row has no number. -/
def dashboardCards (row : Option Row) : List Card :=
  let amount (column : String) : Value := .float (Row.number row column)
  let count (column : String) : Value := .int (Row.count row column)
  let minutes (column : String) : Value := .float (roundTo (Row.number row column) 1)
  [{ label := "Faturamento Total", value := amount "faturamento_total", format := .currency },
    { label := "Ticket Médio", value := amount "ticket_medio", format := .currency },
    { label := "Total de Vendas", value := count "total_vendas", format := .number },
    { label := "Clientes Únicos", value := count "clientes_unicos", format := .number },
    { label := "Tempo Médio Entrega", value := minutes "tempo_medio_entrega_min",
      format := .duration },
    { label := "Tempo Médio Preparo", value := minutes "tempo_medio_preparo_min",
      format := .duration }]

end SalesQuery
