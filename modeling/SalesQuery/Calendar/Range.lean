import SalesQuery.Calendar.DateText
import SalesQuery.Json.Decode

/-!
# Ranges of days

A `DateRange` bounds the day of a sale; either bound may be missing. A `Period` has both. Both
include their bounds, and both are in order only if the first day is not after the last.
-/

namespace SalesQuery

/-- Reads a date from its text. -/
def Date.decoder : Json.Decoder Date := fun levels d => do
  match Date.ofText? (← Json.Decoder.string levels d) with
  | some date => return date
  | none => throw .misfit

/-- A date as a JSON text. -/
def Date.toJson (d : Date) : Json.Value := .string d.text

/-- Bounds on the day of a sale, both included. -/
structure DateRange where
  /-- The first day, if there is one. -/
  start : Option Date := none
  /-- The last day, if there is one. -/
  stop : Option Date := none
deriving DecidableEq, Inhabited

/-- Days in the wrong order. -/
structure Inversion where
  /-- The day given as the first. -/
  start : Date
  /-- The day given as the last, which is before it. -/
  stop : Date
deriving DecidableEq

namespace DateRange

/-- The bounds, if they are in the wrong order. -/
def inversion? (r : DateRange) : Option Inversion :=
  match r.start, r.stop with
  | some start, some stop => if stop < start then some ⟨start, stop⟩ else none
  | _, _ => none

/-- The label of a dashboard: the two days, or a text that stands for an open range. -/
def label (r : DateRange) : String :=
  match r.start, r.stop with
  | some start, some stop => start.text ++ " a " ++ stop.text
  | _, _ => "Todos os períodos"

/-- Reads a range. -/
def decoder : Json.Decoder DateRange :=
  Json.Decoder.record
    [⟨"start_date", false, fun levels d => do
        let start ← Json.Decoder.optional Date.decoder levels d
        return fun r => { r with start }⟩,
      ⟨"end_date", false, fun levels d => do
        let stop ← Json.Decoder.optional Date.decoder levels d
        return fun r => { r with stop }⟩]
    {}

/-- A range as a JSON object; a missing bound is `null`. -/
def toJson (r : DateRange) : Json.Value :=
  .ofMembers [("start_date", .ofOption Date.toJson r.start), ("end_date", .ofOption Date.toJson r.stop)]

end DateRange

/-- What is wrong with the bounds of a range, in words. -/
def Inversion.rangeText (i : Inversion) : String :=
  "start_date " ++ i.start.text ++ " is after end_date " ++ i.stop.text

/-- A range of days with both bounds. -/
structure Period where
  /-- The first day. -/
  start : Date
  /-- The last day. -/
  stop : Date
deriving DecidableEq

/-- What is wrong with the bounds of a period, in words. -/
def Inversion.periodText (i : Inversion) : String :=
  "period start " ++ i.start.text ++ " is after end " ++ i.stop.text

namespace Period

/-- The bounds, if they are in the wrong order. -/
def inversion? (p : Period) : Option Inversion :=
  if p.stop < p.start then some ⟨p.start, p.stop⟩ else none

/-- The period as a range. -/
def toRange (p : Period) : DateRange := ⟨some p.start, some p.stop⟩

/-- Reads a period. The order of its bounds is not looked at. -/
def decoder : Json.Decoder Period := fun levels d => do
  let bounds ← @Json.Decoder.record (Option Date × Option Date)
    [⟨"start", true, fun levels d => do
        let start ← Date.decoder levels d
        return fun r => (some start, r.2)⟩,
      ⟨"end", true, fun levels d => do
        let stop ← Date.decoder levels d
        return fun r => (r.1, some stop)⟩]
    (none, none) levels d
  match bounds with
  | (some start, some stop) => return ⟨start, stop⟩
  | _ => throw .misfit

/-- A period as a JSON object. -/
def toJson (p : Period) : Json.Value :=
  .ofMembers [("start", p.start.toJson), ("end", p.stop.toJson)]

end Period

end SalesQuery
