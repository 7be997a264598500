import SalesQuery.Calendar.Range
import SalesQuery.Report.Filters
import SalesQuery.Request.Fault
import SalesQuery.Text.Blank

/-!
# Requests for reports

A dashboard covers a range of days that may be open; a comparison sets one period against another.
-/

namespace SalesQuery

open Json (Value Decoder)

/-! ## Dashboards -/

/-- The parameters of a dashboard as they are given, with lists as comma separated texts. -/
structure DashboardParams where
  /-- The range of days. -/
  dateRange : DateRange := {}
  /-- Names of channels. -/
  channels : Option String := none
  /-- Names of stores. -/
  stores : Option String := none
  /-- Names of products. -/
  products : Option String := none
deriving DecidableEq, Inhabited

/-- A request for a dashboard. -/
structure DashboardRequest where
  /-- The range of days. -/
  dateRange : DateRange := {}
  /-- The names that the dashboard is restricted to. -/
  filters : ReportFilters := {}
deriving DecidableEq, Inhabited

namespace DashboardParams

/-- The parts of the parameters in their order. -/
def fields : List (Decoder.Field DashboardParams) :=
  [⟨"start_date", false, fun levels d => do
      let start ← Decoder.optional Date.decoder levels d
      return fun p => { p with dateRange := { p.dateRange with start } }⟩,
    ⟨"end_date", false, fun levels d => do
      let stop ← Decoder.optional Date.decoder levels d
      return fun p => { p with dateRange := { p.dateRange with stop } }⟩,
    ⟨"channels", false, fun levels d => do
      let channels ← Decoder.optional Decoder.string levels d
      return fun p => { p with channels }⟩,
    ⟨"stores", false, fun levels d => do
      let stores ← Decoder.optional Decoder.string levels d
      return fun p => { p with stores }⟩,
    ⟨"products", false, fun levels d => do
      let products ← Decoder.optional Decoder.string levels d
      return fun p => { p with products }⟩]

/-- Reads the parameters. -/
def decoder : Decoder DashboardParams := Decoder.record fields {}

/-- The request that the parameters make, unless the range of days is in the wrong order. -/
def toRequest (p : DashboardParams) : Except RequestFault DashboardRequest :=
  match p.dateRange.inversion? with
  | some days => .error (.invertedReport days)
  | none =>
    let names (list : Option String) := (list.map Text.commaList).getD []
    .ok ⟨p.dateRange, ⟨names p.channels, names p.stores, names p.products⟩⟩

end DashboardParams

/-- A request for a dashboard as JSON. -/
def DashboardRequest.toJson (r : DashboardRequest) : Value :=
  .ofMembers [("date_range", r.dateRange.toJson), ("filters", .ofMembers r.filters.jsonMembers)]

/-! ## Comparisons -/

/-- A request to compare two periods. The order of their bounds is not yet checked. -/
structure ComparisonRequest where
  /-- The period of interest. -/
  base : Period
  /-- The period that it is compared with. -/
  compare : Period
  /-- The names that both are restricted to. -/
  filters : ReportFilters
deriving DecidableEq

namespace ComparisonRequest

/-- The bounds of the periods while a request is read. -/
structure Bounds where
  /-- First day of the period of interest. -/
  baseStart : Option Date := none
  /-- Last day of the period of interest. -/
  baseStop : Option Date := none
  /-- First day of the other period. -/
  compareStart : Option Date := none
  /-- Last day of the other period. -/
  compareStop : Option Date := none

/-- The members of a request that are bounds. -/
def boundFields : List (Decoder.Field Bounds) :=
  [⟨"base_start", true, fun levels d => do
      let day ← Date.decoder levels d
      return fun b => { b with baseStart := some day }⟩,
    ⟨"base_end", true, fun levels d => do
      let day ← Date.decoder levels d
      return fun b => { b with baseStop := some day }⟩,
    ⟨"compare_start", true, fun levels d => do
      let day ← Date.decoder levels d
      return fun b => { b with compareStart := some day }⟩,
    ⟨"compare_end", true, fun levels d => do
      let day ← Date.decoder levels d
      return fun b => { b with compareStop := some day }⟩]

/-- Reads the members: bounds at once, and any other member as a value that is kept for the
filters. -/
def members (levels : Option Nat) (seen : List String) (bounds : Bounds) :
    List (Option String × Json.Document) → Except Json.Flaw (Bounds × List (String × Value))
  | [] => .ok (bounds, [])
  | (none, _) :: _ => .error .illFormed
  | (some name, d) :: rest =>
    match boundFields.find? fun f => f.name = name with
    | some f => do
      if seen.contains name then throw .misfit
      let change ← f.read levels d
      members levels (name :: seen) (change bounds) rest
    | none => do
      let v ← Decoder.value levels d
      let (bounds, others) ← members levels seen bounds rest
      return (bounds, (name, v) :: others)

/-- Reads a request. The filters stand beside the bounds in one object, and are looked at when the
object has been read to its end. -/
def decoder : Decoder ComparisonRequest := fun levels d =>
  match d with
  | .object l complete => do
    let levels ← Decoder.enter levels
    let (bounds, others) ← members levels [] {} l
    if !complete then throw .illFormed
    let filters ← (ReportFilters.decoder none
      (.object (others.map fun m => (some m.1, .ofValue m.2)) true)).mapError fun _ => .misfit
    match bounds with
    | ⟨some baseStart, some baseStop, some compareStart, some compareStop⟩ =>
      return ⟨⟨baseStart, baseStop⟩, ⟨compareStart, compareStop⟩, filters⟩
    | _ => throw .misfit
  | d => .error (Decoder.unfit d)

/-- A request as JSON, with bounds and filters side by side. -/
def toJson (r : ComparisonRequest) : Value :=
  .ofMembers ([("base_start", r.base.start.toJson), ("base_end", r.base.stop.toJson),
    ("compare_start", r.compare.start.toJson), ("compare_end", r.compare.stop.toJson)]
    ++ r.filters.jsonMembers)

/-- A period in order; the base period is looked at first. -/
def check (r : ComparisonRequest) : Except RequestFault Unit :=
  match r.base.inversion? <|> r.compare.inversion? with
  | some days => .error (.invertedPeriod days)
  | none => .ok ()

end ComparisonRequest

end SalesQuery
