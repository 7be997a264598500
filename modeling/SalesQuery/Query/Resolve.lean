import SalesQuery.Query.Aggregate
import SalesQuery.Query.Resolved
import SalesQuery.Request.Canonical

/-!
# Resolving requests

Every token of a request is looked up before any SQL is made. The parts are looked at in the order
dimensions, metrics, column names, filters, range of days, order, limit and offset, and the first
fault found is the answer.
-/

namespace SalesQuery

open Json (Value)

/-- The list without the repetitions of earlier elements. -/
def distinct {α : Type} [DecidableEq α] (l : List α) : List α :=
  (l.foldl (fun seen a => if a ∈ seen then seen else a :: seen) []).reverse

/-! ## Selected columns -/

/-- The metric that a token selects: a name of the catalog as it stands, or a custom aggregate with
blanks around it, whose qualifier is an alias of the catalog. -/
def resolveMetric (c : Catalog) (token : String) : Except RequestFault MetricSelection :=
  if (c.metric? token).isSome then .ok (.catalog token)
  else
    let text := Text.trim token
    match Aggregate.parts? text.toList with
    | none => .error (.unknownMetric token)
    | some (qualifier, aliasName) =>
      let qualifier := qualifier.map Text.lowerAscii
      if qualifier.all c.knowsAlias then .ok (.custom ⟨text, aliasName, qualifier⟩)
      else .error (.unknownMetric token)

/-- The dimension that a token selects. -/
def resolveDimension (c : Catalog) (token : String) : Except RequestFault String :=
  if (c.dimension? token).isSome then .ok token else .error (.unknownDimension token)

/-- The first name that equals an earlier one up to the case of its letters. -/
def repeatedName? (seen : List String) : List String → Option String
  | [] => none
  | name :: rest =>
    if ∃ s ∈ seen, Text.SameLetters s name then some name else repeatedName? (name :: seen) rest

/-! ## Filters -/

/-- The scalar that a JSON value is bound as. An integer beyond 64 signed bits is a double. -/
def resolveScalar (kind : ValueKind) (v : Value) : Except ValueFault Scalar :=
  match kind, v with
  | .date, .string raw =>
    match Date.ofFilterText? raw with
    | some date => .ok (.date date)
    | none => .error (.notADate raw)
  | .date, _ => .error .dateExpected
  | .any, .bool b => .ok (.bool b)
  | .any, .number n =>
    match n.int64? with
    | some n => .ok (.int n)
    | none => .ok (.float n.toBinary64)
  | .any, .string s => .ok (.text s)
  | .any, .null => .error .null
  | .any, _ => .error .notScalar

/-- The scalars of a list filter. -/
def resolveList (kind : ValueKind) (values : List Value) : Except ValueFault (List Scalar) :=
  if maxListValues < values.length then .error .tooManyValues
  else values.mapM (resolveScalar kind)

/-- The condition of an operator; its name may be in any case. -/
def resolveOperator (kind : ValueKind) (op : String) (v : Value) :
    Except ValueFault FilterCondition :=
  match Text.lowerAscii op with
  | "eq" => .equals <$> resolveScalar kind v
  | "in" =>
    match v with
    | .array values => .oneOf <$> resolveList kind values
    | _ => .error .listExpected
  | "gt" => .compare .gt <$> resolveScalar kind v
  | "gte" => .compare .gte <$> resolveScalar kind v
  | "lt" => .compare .lt <$> resolveScalar kind v
  | "lte" => .compare .lte <$> resolveScalar kind v
  | other => .error (.unknownOperator other)

/-- The conditions of a filter: one for a list or a single value, one for each operator of a map. -/
def resolveConditions (kind : ValueKind) : FilterInput → Except ValueFault (List FilterCondition)
  | .list values => do return [.oneOf (← resolveList kind values)]
  | .operators values =>
    if values.isEmpty then .error .noOperator
    else values.entries.mapM fun (op, v) => resolveOperator kind op v
  | .scalar v => do return [.equals (← resolveScalar kind v)]

/-- The filters that one entry of a request stands for. -/
def resolveFilter (c : Catalog) (field : String) (input : FilterInput) :
    Except RequestFault (List Filter) :=
  match c.filterField? field with
  | none => .error (.unknownFilterField field)
  | some target =>
    match resolveConditions target.kind input with
    | .error fault => .error (.filterValue field fault)
    | .ok conditions => .ok (conditions.map fun condition => ⟨field, condition⟩)

/-! ## Order and rows -/

/-- The direction that a text names; without one, the greatest comes first. -/
def resolveDirection (given : Option String) : Except RequestFault Direction :=
  let word := Text.trim (given.getD "")
  if word = "" ∨ Text.SameLetters word "desc" then .ok .desc
  else if Text.SameLetters word "asc" then .ok .asc
  else .error (.orderDirection word)

/-- A term of the order over the columns with the given names. -/
def resolveOrder (outputs : List String) (t : OrderInput) : Except RequestFault OrderTerm := do
  match outputs.find? fun name => Text.SameLetters name (Text.trim t.field) with
  | none => throw (.unknownOrderField t.field)
  | some field => return ⟨field, ← resolveDirection t.direction⟩

/-- A limit lies between one and the greatest allowed. -/
def checkLimit (limit max : Int) : Except RequestFault Unit :=
  if limit < 1 ∨ max < limit then .error (.limitOutOfRange limit max) else .ok ()

/-- An offset is not negative. -/
def checkOffset (offset : Int) : Except RequestFault Unit :=
  if offset < 0 then .error (.negativeOffset offset) else .ok ()

/-- A range of days is in order. -/
def checkRange (range : DateRange) : Except RequestFault Unit :=
  match range.inversion? with
  | some days => .error (.invertedRange days)
  | none => .ok ()

/-- The names of the columns: dimensions, then metrics. -/
def outputNames (dimensions : List String) (metrics : List MetricSelection) : List String :=
  dimensions ++ metrics.map MetricSelection.outputName

/-- Resolves every token of a request, with at most `maxLimit` rows. -/
def QueryRequest.resolve (c : Catalog) (maxLimit : Int) (r : QueryRequest) :
    Except RequestFault ResolvedQuery := do
  let dimensions := distinct (← r.dimensions.mapM (resolveDimension c))
  let metrics := distinct (← r.metrics.mapM (resolveMetric c))
  if dimensions.isEmpty && metrics.isEmpty then throw .emptySelection
  let outputs := outputNames dimensions metrics
  match repeatedName? [] outputs with
  | some name => throw (.duplicateColumn name)
  | none => pure ()
  let filters ← r.filters.entries.mapM fun (field, input) => resolveFilter c field input
  r.dateRange.forM checkRange
  let orderBy ← (r.orderBy.getD []).mapM (resolveOrder outputs)
  r.limit.forM (checkLimit · maxLimit)
  r.offset.forM checkOffset
  return ⟨dimensions, metrics, filters.flatten, r.dateRange, orderBy, r.limit, r.offset⟩

end SalesQuery
