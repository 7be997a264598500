import Mathlib.Data.List.Pairwise
import SalesQuery.Proofs.Resolution

/-!
# Which requests are accepted

`QueryRequest.Admissible` lists the rules for a request in the words of a caller, and
`QueryRequest.StandsFor` says which query an admissible request stands for. Neither follows the
steps of `QueryRequest.resolve`, which stops at the first rule that is broken and builds the query
on the way. The main statement is that a request is resolved exactly if it is admissible, and then
to the query that it stands for (`QueryRequest.resolve_admissible`).

The two descriptions part at filter values: `ValueKind.Accepts` says what a value has to look like,
and `ValueKind.Binds` which scalar it is bound as. `ValueKind.accepts_iff` and its companions for
lists, operators and whole filters tie them together.
-/

namespace SalesQuery

open Json (Value)

variable {α β ε : Type}

/-! ## Filter values -/

/-- A JSON value may be given to a filter. On a date field it is a text that names a day; on other
fields it is neither `null` nor a list nor an object. -/
def ValueKind.Accepts : ValueKind → Value → Prop
  | .date, v => ∃ raw, v = .string raw ∧ (Date.ofFilterText? raw).isSome
  | .any, v => v ≠ .null ∧ (∀ items, v ≠ .array items) ∧ ∀ members, v ≠ .object members

/-- The scalar that a JSON value is bound as. -/
inductive ValueKind.Binds : ValueKind → Value → Scalar → Prop
  /-- On a date field, the day that a text names. -/
  | date {raw : String} {d : Date} (h : Date.ofFilterText? raw = some d) :
    Binds .date (.string raw) (.date d)
  /-- A truth value as it is. -/
  | bool (b : Bool) : Binds .any (.bool b) (.bool b)
  /-- A text as it is. -/
  | text (s : String) : Binds .any (.string s) (.text s)
  /-- An integer of 64 bits as it is. -/
  | int {n : Int} (h : Text.fitsInt64 n = true) : Binds .any (.number (.int n)) (.int n)
  /-- Any other integer as the nearest double. -/
  | wide {n : Int} (h : Text.fitsInt64 n = false) :
    Binds .any (.number (.int n)) (.float (.ofInt n))
  /-- A double as it is. -/
  | float (x : Binary64) : Binds .any (.number (.float x)) (.float x)

/-- The values of a list filter: at most two hundred, and each may be given to a filter. -/
def ValueKind.AcceptsList (kind : ValueKind) (values : List Value) : Prop :=
  values.length ≤ 200 ∧ ∀ v ∈ values, kind.Accepts v

/-- The scalars that the values of a list filter are bound as. -/
def ValueKind.BindsList (kind : ValueKind) (values : List Value) (l : List Scalar) : Prop :=
  values.length ≤ 200 ∧ List.Forall₂ kind.Binds values l

/-- An operator is known, and its operand fits it. Names of operators may be in any case. -/
def ValueKind.AcceptsOperator (kind : ValueKind) (op : String) (v : Value) : Prop :=
  (Text.SameLetters op "in" ∧ ∃ values, v = .array values ∧ kind.AcceptsList values) ∨
    (∃ word ∈ ["eq", "gt", "gte", "lt", "lte"], Text.SameLetters op word) ∧ kind.Accepts v

/-- The condition that an operator with its operand stands for. -/
inductive ValueKind.BindsOperator (kind : ValueKind) : String → Value → FilterCondition → Prop
  /-- The value is the operand. -/
  | equals {op : String} {v : Value} {s : Scalar} (hop : Text.SameLetters op "eq")
    (h : kind.Binds v s) : BindsOperator kind op v (.equals s)
  /-- The value is one of the operand's. -/
  | oneOf {op : String} {values : List Value} {l : List Scalar} (hop : Text.SameLetters op "in")
    (h : kind.BindsList values l) : BindsOperator kind op (.array values) (.oneOf l)
  /-- The value compares with the operand in the way that the operator names. -/
  | compare {op : String} {v : Value} {s : Scalar} {c : Comparison} (hc : c ≠ .eq)
    (hop : Text.SameLetters op c.name) (h : kind.Binds v s) :
    BindsOperator kind op v (.compare c s)

/-- A filter is well shaped: a value, a list of values, or operators, of which there is at least
one. -/
def FilterInput.WellShaped (kind : ValueKind) : FilterInput → Prop
  | .scalar v => kind.Accepts v
  | .list values => kind.AcceptsList values
  | .operators ops => ops.entries ≠ [] ∧ ∀ entry ∈ ops.entries, kind.AcceptsOperator entry.1 entry.2

/-- The conditions that a filter stands for: one for a value or a list, one for each operator. -/
inductive FilterInput.StandsFor (kind : ValueKind) : FilterInput → List FilterCondition → Prop
  /-- The value has to be the one given. -/
  | scalar {v : Value} {s : Scalar} (h : kind.Binds v s) : StandsFor kind (.scalar v) [.equals s]
  /-- The value has to be one of those given. -/
  | list {values : List Value} {l : List Scalar} (h : kind.BindsList values l) :
    StandsFor kind (.list values) [.oneOf l]
  /-- The value has to satisfy every operator. -/
  | operators {ops : Dictionary Value} {conditions : List FilterCondition} (hne : ops.entries ≠ [])
    (h : List.Forall₂ (fun entry => kind.BindsOperator entry.1 entry.2) ops.entries conditions) :
    StandsFor kind (.operators ops) conditions

/-- The filters that an entry of a request stands for: its conditions on its field, which is one of
the catalog. -/
def FilterInput.StandsForOn (c : Catalog) (field : String) (input : FilterInput)
    (filters : List Filter) : Prop :=
  ∃ target conditions, c.filterField? field = some target ∧
    input.StandsFor target.kind conditions ∧ conditions.map (Filter.mk field) = filters

/-! ## Requests -/

/-- The text of a direction: a word for it in any case, with blanks around it. No text and a blank
one ask for the greatest first. -/
def Direction.IsNamedBy : Direction → Option String → Prop
  | .asc, given => ∃ word ∈ given, Text.SameLetters (Text.trim word) "asc"
  | .desc, given =>
    ∀ word ∈ given, Text.trim word = "" ∨ Text.SameLetters (Text.trim word) "desc"

/-- The term of the order that is given is on one of the columns, which it may name in any case, and
in the direction that it names. -/
structure OrderInput.StandsFor (columns : List String) (given : OrderInput) (t : OrderTerm) :
    Prop where
  /-- The term is on a column. -/
  column : t.field ∈ columns
  /-- The column is the one that is given, up to blanks around it and the case of letters. -/
  named : Text.SameLetters t.field (Text.trim given.field)
  /-- The direction is the one that is given. -/
  direction : t.direction.IsNamedBy given.direction

namespace QueryRequest

/-- The metrics that the tokens of a request select, in order. -/
def selections (c : Catalog) (r : QueryRequest) : List MetricSelection :=
  r.metrics.filterMap fun token => (resolveMetric c token).toOption

/-- The names of the columns: dimensions, then metrics, each where it is first given. -/
def columns (c : Catalog) (r : QueryRequest) : List String :=
  r.dimensions.eraseDups ++ (r.selections c).eraseDups.map MetricSelection.outputName

/-- The rules for a request. -/
structure Admissible (c : Catalog) (maxLimit : Int) (r : QueryRequest) : Prop where
  /-- The dimensions are in the catalog. -/
  dimensions : ∀ token ∈ r.dimensions, ∃ d ∈ c.dimensions, d.name = token
  /-- The metrics are in the catalog, or custom aggregates. -/
  metrics : ∀ token ∈ r.metrics, ∃ m, resolveMetric c token = .ok m
  /-- Something is selected. -/
  selected : r.dimensions ≠ [] ∨ r.metrics ≠ []
  /-- No two columns have the same name up to the case of letters. -/
  names : (r.columns c).Pairwise fun a b => ¬ Text.SameLetters a b
  /-- The filters are on fields of the catalog, and well shaped. -/
  filters : ∀ entry ∈ r.filters.entries, ∃ target, c.filterField? entry.1 = some target ∧
    entry.2.WellShaped target.kind
  /-- The first day is not after the last. -/
  dateRange : ∀ range ∈ r.dateRange, ∀ start ∈ range.start, ∀ stop ∈ range.stop, ¬ stop < start
  /-- The order is over the columns, and its directions are known. -/
  orderBy : ∀ given ∈ r.orderBy.getD [],
    (∃ name ∈ r.columns c, Text.SameLetters name (Text.trim given.field)) ∧
      ∀ word ∈ given.direction, Text.trim word = "" ∨ Text.SameLetters (Text.trim word) "asc" ∨
        Text.SameLetters (Text.trim word) "desc"
  /-- The limit is from one to the greatest allowed. -/
  limit : ∀ n ∈ r.limit, 1 ≤ n ∧ n ≤ maxLimit
  /-- The offset is not negative. -/
  offset : ∀ n ∈ r.offset, 0 ≤ n

/-- The query that a request stands for. -/
structure StandsFor (c : Catalog) (r : QueryRequest) (q : ResolvedQuery) : Prop where
  /-- The dimensions are those of the request, each where it is first given. -/
  dimensions : q.dimensions = r.dimensions.eraseDups
  /-- So are the metrics. -/
  metrics : q.metrics = (r.selections c).eraseDups
  /-- The filters are the conditions of each field, in the order of the fields. -/
  filters : ∃ groups, q.filters = groups.flatten ∧
    List.Forall₂ (fun entry => entry.2.StandsForOn c entry.1) r.filters.entries groups
  /-- The range of days is that of the request. -/
  dateRange : q.dateRange = r.dateRange
  /-- The order is that of the request, in the spelling of the columns. -/
  orderBy : List.Forall₂ (OrderInput.StandsFor (r.columns c)) (r.orderBy.getD []) q.orderBy
  /-- The limit is that of the request. -/
  limit : q.limit = r.limit
  /-- So is the offset. -/
  offset : q.offset = r.offset

end QueryRequest

/-! ## Lists -/

/-- Each element of a list is related to something exactly if the list is related to a list. -/
theorem exists_forall₂_iff {R : α → β → Prop} {l : List α} :
    (∃ m, List.Forall₂ R l m) ↔ ∀ a ∈ l, ∃ b, R a b := by
  induction l with
  | nil => exact ⟨fun _ => by simp, fun _ => ⟨[], .nil⟩⟩
  | cons a l ih =>
    rw [List.forall_mem_cons, ← ih]
    constructor
    · rintro ⟨m, h⟩
      obtain ⟨b, rest, hab, hrest, -⟩ := List.forall₂_cons_left_iff.mp h
      exact ⟨⟨b, hab⟩, rest, hrest⟩
    · rintro ⟨⟨b, hab⟩, m, hrest⟩
      exact ⟨b :: m, .cons hab hrest⟩

/-- Steps for the elements of a list return exactly if each of them does, and then what they
return. -/
theorem mapM_eq_ok_iff_filterMap {f : α → Except ε β} {l : List α} {m : List β} :
    l.mapM f = .ok m ↔
      (∀ a ∈ l, ∃ b, f a = .ok b) ∧ m = l.filterMap fun a => (f a).toOption := by
  induction l generalizing m with
  | nil =>
    rw [List.mapM_nil, pure_eq_ok]
    simp [eq_comm]
  | cons a l ih =>
    rw [List.mapM_cons, List.forall_mem_cons]
    cases ha : f a with
    | error e => simp [bind_eq_ok]
    | ok b =>
      have hsome : (f a).toOption = some b := by rw [ha]; rfl
      have hhead : (a :: l).filterMap (fun a => (f a).toOption) =
          b :: l.filterMap fun a => (f a).toOption := List.filterMap_cons_some hsome
      rw [hhead]
      simp only [bind_eq_ok, pure_eq_ok, Except.ok.injEq, ih]
      constructor
      · rintro ⟨_, rfl, rest, ⟨hrest, rfl⟩, rfl⟩
        exact ⟨⟨⟨b, rfl⟩, hrest⟩, rfl⟩
      · rintro ⟨⟨-, hrest⟩, rfl⟩
        exact ⟨b, rfl, _, ⟨hrest, rfl⟩, rfl⟩

/-- Leaving out repetitions keeps each element where it is first. -/
theorem distinct_eq_eraseDups [DecidableEq α] (l : List α) : distinct l = l.eraseDups := by
  -- The elements seen so far are kept, and what follows loses them.
  have hfold : ∀ (l seen : List α),
      (l.foldl (fun seen a => if a ∈ seen then seen else a :: seen) seen).reverse =
        seen.reverse ++ (l.filter (· ∉ seen)).eraseDups := by
    intro l
    induction l with
    | nil => simp
    | cons a l ih =>
      intro seen
      rw [List.foldl_cons]
      by_cases ha : a ∈ seen
      · rw [if_pos ha, ih, List.filter_cons_of_neg (by simpa using ha)]
      · have hnew : l.filter (· ∉ a :: seen) = (l.filter (· ∉ seen)).filter fun b => !b == a := by
          rw [List.filter_filter]
          refine List.filter_congr fun b _ => ?_
          rw [Bool.eq_iff_iff]
          simp
        rw [if_neg ha, ih, List.filter_cons_of_pos (by simpa using ha), List.eraseDups_cons, hnew,
          List.reverse_cons, List.append_assoc, List.singleton_append]
  have hnone : l.filter (· ∉ ([] : List α)) = l := List.filter_eq_self.mpr (by simp)
  rw [distinct, hfold, hnone, List.reverse_nil, List.nil_append]

/-- No name is repeated exactly if no two names have the same letters. -/
theorem repeatedName?_eq_none {l : List String} :
    repeatedName? [] l = none ↔ l.Pairwise fun a b => ¬ Text.SameLetters a b := by
  have hseen : ∀ l seen, repeatedName? seen l = none ↔
      (∀ a ∈ l, ∀ s ∈ seen, ¬ Text.SameLetters s a) ∧
        l.Pairwise fun a b => ¬ Text.SameLetters a b := by
    intro l
    induction l with
    | nil => simp [repeatedName?]
    | cons a l ih =>
      intro seen
      rw [repeatedName?, List.pairwise_cons, List.forall_mem_cons]
      split
      · rename_i hold
        obtain ⟨s, hs, hsame⟩ := hold
        constructor
        · intro h
          contradiction
        · rintro ⟨⟨hnew, -⟩, -⟩
          exact absurd hsame (hnew s hs)
      · rename_i hnew
        simp only [not_exists, not_and] at hnew
        rw [ih]
        simp only [List.forall_mem_cons]
        constructor
        · rintro ⟨hrest, hpairs⟩
          exact ⟨⟨hnew, fun b hb => (hrest b hb).2⟩, fun b hb => (hrest b hb).1, hpairs⟩
        · rintro ⟨⟨-, hrest⟩, hfirst, hpairs⟩
          exact ⟨fun b hb => ⟨hfirst b hb, hrest b hb⟩, hpairs⟩
  rw [hseen]
  simp

/-! ## Values, lists and operators -/

variable {kind : ValueKind}

/-- A value resolves to the scalar that it is bound as. -/
theorem resolveScalar_eq_ok {v : Value} {s : Scalar} :
    resolveScalar kind v = .ok s ↔ kind.Binds v s := by
  constructor
  · intro h
    unfold resolveScalar at h
    split at h
    · rename_i raw
      split at h
      · rename_i d hd
        obtain rfl := Except.ok.inj h
        exact .date hd
      · contradiction
    · contradiction
    · obtain rfl := Except.ok.inj h
      exact .bool _
    · rename_i n
      cases n with
      | int n =>
        cases hfits : Text.fitsInt64 n with
        | true =>
          simp only [Json.Number.int64?, hfits, if_true] at h
          obtain rfl := Except.ok.inj h
          exact .int hfits
        | false =>
          simp only [Json.Number.int64?, hfits] at h
          obtain rfl := Except.ok.inj h
          exact .wide hfits
      | float x =>
        obtain rfl := Except.ok.inj h
        exact .float x
    · obtain rfl := Except.ok.inj h
      exact .text _
    · contradiction
    · contradiction
  · intro h
    cases h with
    | date h => simp [resolveScalar, h]
    | int h => simp [resolveScalar, Json.Number.int64?, h]
    | wide h => simp [resolveScalar, Json.Number.int64?, Json.Number.toBinary64, h]
    | _ => rfl

/-- The values that may be given are those that are bound. -/
theorem ValueKind.accepts_iff {v : Value} : kind.Accepts v ↔ ∃ s, kind.Binds v s := by
  cases kind with
  | date =>
    constructor
    · rintro ⟨raw, rfl, hday⟩
      obtain ⟨d, hd⟩ := Option.isSome_iff_exists.mp hday
      exact ⟨_, .date hd⟩
    · rintro ⟨s, hs⟩
      cases hs with
      | date h => exact ⟨_, rfl, by rw [h]; rfl⟩
  | any =>
    constructor
    · rintro ⟨hnull, harray, hobject⟩
      cases v with
      | null => exact absurd rfl hnull
      | bool b => exact ⟨_, .bool b⟩
      | number n =>
        cases n with
        | int n =>
          cases hfits : Text.fitsInt64 n with
          | true => exact ⟨_, .int hfits⟩
          | false => exact ⟨_, .wide hfits⟩
        | float x => exact ⟨_, .float x⟩
      | string s => exact ⟨_, .text s⟩
      | array items => exact absurd rfl (harray items)
      | object members => exact absurd rfl (hobject members)
    · rintro ⟨s, hs⟩
      cases hs with
      | _ => exact ⟨nofun, nofun, nofun⟩

/-- A list resolves to the scalars that it is bound as. -/
theorem resolveList_eq_ok {values : List Value} {l : List Scalar} :
    resolveList kind values = .ok l ↔ kind.BindsList values l := by
  have hscalars : values.mapM (resolveScalar kind) = .ok l ↔
      List.Forall₂ kind.Binds values l := by
    simp only [mapM_eq_ok, resolveScalar_eq_ok]
  rw [resolveList, ValueKind.BindsList, ← hscalars]
  split
  · rename_i hlong
    have hlong : ¬values.length ≤ 200 := Nat.not_le_of_lt hlong
    simp [hlong]
  · rename_i hshort
    have hshort : values.length ≤ 200 := Nat.le_of_not_lt hshort
    simp [hshort]

/-- The lists that may be given are those that are bound. -/
theorem ValueKind.acceptsList_iff {values : List Value} :
    kind.AcceptsList values ↔ ∃ l, kind.BindsList values l := by
  simp only [AcceptsList, BindsList, accepts_iff, exists_and_left, exists_forall₂_iff]

/-- A name in any case is one in lower case exactly if it is that one in lower case. -/
theorem Text.sameLetters_iff {s word : String} (h : Text.lowerAscii word = word) :
    Text.SameLetters s word ↔ Text.lowerAscii s = word := by
  rw [Text.SameLetters, h]

/-- An operator resolves to the condition that it stands for. -/
theorem resolveOperator_eq_ok {op : String} {v : Value} {condition : FilterCondition} :
    resolveOperator kind op v = .ok condition ↔ kind.BindsOperator op v condition := by
  have hlower (c : Comparison) : Text.lowerAscii c.name = c.name := by
    cases c <;> decide
  have hin : Text.lowerAscii "in" = "in" := by decide
  constructor
  · intro h
    -- An operator that compares is known by the name of its comparison.
    have hcompare (c : Comparison) (hc : c ≠ .eq) (hop : Text.lowerAscii op = c.name)
        (h : FilterCondition.compare c <$> resolveScalar kind v = .ok condition) :
        kind.BindsOperator op v condition := by
      obtain ⟨s, hs, rfl⟩ := map_eq_ok.mp h
      exact .compare hc ((Text.sameLetters_iff (hlower c)).mpr hop) (resolveScalar_eq_ok.mp hs)
    unfold resolveOperator at h
    split at h
    · rename_i hop
      obtain ⟨s, hs, rfl⟩ := map_eq_ok.mp h
      exact .equals ((Text.sameLetters_iff (hlower .eq)).mpr hop) (resolveScalar_eq_ok.mp hs)
    · rename_i hop
      split at h
      · obtain ⟨l, hl, rfl⟩ := map_eq_ok.mp h
        exact .oneOf ((Text.sameLetters_iff hin).mpr hop) (resolveList_eq_ok.mp hl)
      · contradiction
    · exact hcompare .gt (by decide) ‹_› h
    · exact hcompare .gte (by decide) ‹_› h
    · exact hcompare .lt (by decide) ‹_› h
    · exact hcompare .lte (by decide) ‹_› h
    · contradiction
  · intro h
    cases h with
    | equals hop h =>
      have hop : Text.lowerAscii op = "eq" := (Text.sameLetters_iff (hlower .eq)).mp hop
      simp only [resolveOperator, hop]
      exact map_eq_ok.mpr ⟨_, resolveScalar_eq_ok.mpr h, rfl⟩
    | oneOf hop h =>
      have hop : Text.lowerAscii op = "in" := (Text.sameLetters_iff hin).mp hop
      simp only [resolveOperator, hop]
      exact map_eq_ok.mpr ⟨_, resolveList_eq_ok.mpr h, rfl⟩
    | @compare _ s c hc hop h =>
      have hop : Text.lowerAscii op = c.name := (Text.sameLetters_iff (hlower c)).mp hop
      have hresult : FilterCondition.compare c <$> resolveScalar kind v = .ok (.compare c s) :=
        map_eq_ok.mpr ⟨s, resolveScalar_eq_ok.mpr h, rfl⟩
      cases c with
      | eq => exact absurd rfl hc
      | _ =>
        simp only [resolveOperator, hop, Comparison.name]
        exact hresult

/-- The operators that may be given are those that stand for a condition. -/
theorem ValueKind.acceptsOperator_iff {op : String} {v : Value} :
    kind.AcceptsOperator op v ↔ ∃ condition, kind.BindsOperator op v condition := by
  constructor
  · rintro (⟨hop, values, rfl, hvalues⟩ | ⟨⟨word, hword, hop⟩, hv⟩)
    · obtain ⟨l, hl⟩ := acceptsList_iff.mp hvalues
      exact ⟨_, .oneOf hop hl⟩
    · obtain ⟨s, hs⟩ := accepts_iff.mp hv
      simp only [List.mem_cons, List.not_mem_nil, or_false] at hword
      rcases hword with rfl | rfl | rfl | rfl | rfl
      · exact ⟨_, .equals hop hs⟩
      · exact ⟨_, .compare (c := .gt) (by decide) hop hs⟩
      · exact ⟨_, .compare (c := .gte) (by decide) hop hs⟩
      · exact ⟨_, .compare (c := .lt) (by decide) hop hs⟩
      · exact ⟨_, .compare (c := .lte) (by decide) hop hs⟩
  · rintro ⟨condition, h⟩
    cases h with
    | equals hop h => exact .inr ⟨⟨"eq", by simp, hop⟩, accepts_iff.mpr ⟨_, h⟩⟩
    | oneOf hop h => exact .inl ⟨hop, _, rfl, acceptsList_iff.mpr ⟨_, h⟩⟩
    | @compare _ _ c hc hop h =>
      refine .inr ⟨⟨c.name, ?_, hop⟩, accepts_iff.mpr ⟨_, h⟩⟩
      cases c with
      | eq => exact absurd rfl hc
      | _ => simp [Comparison.name]

/-! ## Filters -/

/-- A filter resolves to the conditions that it stands for. -/
theorem resolveConditions_eq_ok {input : FilterInput} {conditions : List FilterCondition} :
    resolveConditions kind input = .ok conditions ↔ input.StandsFor kind conditions := by
  constructor
  · intro h
    cases input with
    | scalar v =>
      obtain ⟨s, hs, h⟩ := bind_eq_ok.mp h
      obtain rfl := pure_eq_ok.mp h
      exact .scalar (resolveScalar_eq_ok.mp hs)
    | list values =>
      obtain ⟨l, hl, h⟩ := bind_eq_ok.mp h
      obtain rfl := pure_eq_ok.mp h
      exact .list (resolveList_eq_ok.mp hl)
    | operators ops =>
      rw [resolveConditions] at h
      split at h
      · contradiction
      · rename_i hne
        refine .operators (fun hnil => hne (by rw [Dictionary.isEmpty, hnil]; rfl)) ?_
        simpa only [resolveOperator_eq_ok] using mapM_eq_ok.mp h
  · intro h
    cases h with
    | scalar h => exact bind_eq_ok.mpr ⟨_, resolveScalar_eq_ok.mpr h, rfl⟩
    | list h => exact bind_eq_ok.mpr ⟨_, resolveList_eq_ok.mpr h, rfl⟩
    | @operators ops conditions hne h =>
      have hentries : ops.isEmpty = false := by
        rw [Dictionary.isEmpty, List.isEmpty_eq_false_iff]
        exact hne
      rw [resolveConditions, hentries, if_neg Bool.false_ne_true, mapM_eq_ok]
      simpa only [resolveOperator_eq_ok] using h

/-- The filters that are well shaped are those that stand for conditions. -/
theorem FilterInput.wellShaped_iff {input : FilterInput} :
    input.WellShaped kind ↔ ∃ conditions, input.StandsFor kind conditions := by
  cases input with
  | scalar v =>
    rw [WellShaped, ValueKind.accepts_iff]
    constructor
    · rintro ⟨s, hs⟩
      exact ⟨_, .scalar hs⟩
    · rintro ⟨_, hs⟩
      cases hs with
      | scalar h => exact ⟨_, h⟩
  | list values =>
    rw [WellShaped, ValueKind.acceptsList_iff]
    constructor
    · rintro ⟨l, hl⟩
      exact ⟨_, .list hl⟩
    · rintro ⟨_, hl⟩
      cases hl with
      | list h => exact ⟨_, h⟩
  | operators ops =>
    simp only [WellShaped, ValueKind.acceptsOperator_iff, ← exists_forall₂_iff]
    constructor
    · rintro ⟨hne, conditions, h⟩
      exact ⟨conditions, .operators hne h⟩
    · rintro ⟨conditions, h⟩
      cases h with
      | operators hne h => exact ⟨hne, conditions, h⟩

/-! ## Columns and order -/

variable {c : Catalog} {maxLimit : Int} {r : QueryRequest} {q : ResolvedQuery}

/-- The tokens of dimensions resolve to themselves, if the catalog has them. -/
theorem mapM_resolveDimension_eq_ok {tokens names : List String} :
    tokens.mapM (resolveDimension c) = .ok names ↔
      (∀ token ∈ tokens, ∃ d ∈ c.dimensions, d.name = token) ∧ names = tokens := by
  have hone (token name : String) : resolveDimension c token = .ok name ↔
      (∃ d ∈ c.dimensions, d.name = token) ∧ token = name := by
    have hknown : (c.dimension? token).isSome ↔ ∃ d ∈ c.dimensions, d.name = token := by
      simp [Catalog.dimension?, List.find?_isSome]
    rw [resolveDimension]
    split
    · rename_i h
      simp [hknown.mp h]
    · rename_i h
      simp [mt hknown.mpr h]
  simp only [mapM_eq_ok, hone, List.forall₂_and_left, List.forall₂_eq_eq_eq]
  exact and_congr_right fun _ => eq_comm

/-- Leaving out repetitions leaves nothing only of nothing. -/
theorem eraseDups_eq_nil [DecidableEq α] {l : List α} : l.eraseDups = [] ↔ l = [] := by
  cases l with
  | nil => simp
  | cons a l => simp [List.eraseDups_cons]

/-- Among names with different letters, the first one with some letters is the only one. -/
theorem find?_sameLetters_eq_some {names : List String} {word name : String}
    (h : names.Pairwise fun a b => ¬ Text.SameLetters a b) :
    (names.find? fun n => Text.SameLetters n word) = some name ↔
      name ∈ names ∧ Text.SameLetters name word := by
  constructor
  · intro hfound
    exact ⟨List.mem_of_find?_eq_some hfound, by simpa using List.find?_some hfound⟩
  · rintro ⟨hname, hword⟩
    obtain ⟨first, hfirst⟩ : ∃ n, (names.find? fun n => Text.SameLetters n word) = some n := by
      rw [← Option.isSome_iff_exists, List.find?_isSome]
      exact ⟨name, hname, by simpa using hword⟩
    have hsame : Text.SameLetters first word := by simpa using List.find?_some hfirst
    have hletters : Text.lowerAscii first = Text.lowerAscii name := hsame.trans hword.symm
    -- Two different names with the letters of the word would have the same letters.
    have hsymm : Std.Symm fun a b => ¬ Text.SameLetters a b := ⟨fun _ _ hab hba => hab hba.symm⟩
    have heq : first = name := by
      by_contra hne
      exact h.forall (List.mem_of_find?_eq_some hfirst) hname hne hletters
    rw [hfirst, heq]

/-- A direction resolves to the one that is named. -/
theorem resolveDirection_eq_ok {given : Option String} {direction : Direction} :
    resolveDirection given = .ok direction ↔ direction.IsNamedBy given := by
  have hblank : Text.trim "" = "" := by decide
  have hasc : Text.lowerAscii "asc" = "asc" := by decide
  have hdesc : Text.lowerAscii "desc" = "desc" := by decide
  have hempty : Text.lowerAscii "" = "" := by decide
  cases given with
  | none =>
    have hvalue : resolveDirection none = .ok .desc := by decide
    rw [hvalue]
    cases direction with
    | asc => simp [Direction.IsNamedBy]
    | desc => simp [Direction.IsNamedBy]
  | some word =>
    simp only [resolveDirection, Option.getD_some]
    split
    · rename_i h
      have hasc' : ¬ Text.SameLetters (Text.trim word) "asc" := by
        rw [Text.sameLetters_iff hasc]
        rcases h with h | h
        · rw [h, hempty]
          decide
        · rw [(Text.sameLetters_iff hdesc).mp h]
          decide
      cases direction with
      | asc => simp [Direction.IsNamedBy, hasc']
      | desc => simpa [Direction.IsNamedBy] using h
    · rename_i h
      split
      · rename_i hnamed
        cases direction with
        | asc => simpa [Direction.IsNamedBy] using hnamed
        | desc => simpa [Direction.IsNamedBy] using h
      · rename_i hother
        cases direction with
        | asc => simpa [Direction.IsNamedBy] using hother
        | desc => simpa [Direction.IsNamedBy] using h

/-- A direction is named exactly if its word is blank or one of the two. -/
theorem Direction.exists_isNamedBy_iff {given : Option String} :
    (∃ direction : Direction, direction.IsNamedBy given) ↔
      ∀ word ∈ given, Text.trim word = "" ∨ Text.SameLetters (Text.trim word) "asc" ∨
        Text.SameLetters (Text.trim word) "desc" := by
  cases given with
  | none => exact ⟨fun _ => nofun, fun _ => ⟨.desc, nofun⟩⟩
  | some word =>
    simp only [Option.mem_def, Option.some.injEq, forall_eq']
    constructor
    · rintro ⟨direction, h⟩
      cases direction with
      | asc =>
        obtain ⟨named, hnamed, h⟩ := h
        obtain rfl := Option.some.inj hnamed
        exact .inr (.inl h)
      | desc => exact (h word rfl).imp_right .inr
    · rintro (h | h | h)
      · exact ⟨.desc, fun _ hword => .inl (Option.some.inj hword ▸ h)⟩
      · exact ⟨.asc, word, rfl, h⟩
      · exact ⟨.desc, fun _ hword => .inr (Option.some.inj hword ▸ h)⟩

/-- A term of the order resolves to the one that is given, if the columns have different names. -/
theorem resolveOrder_eq_ok {columns : List String} {given : OrderInput} {t : OrderTerm}
    (h : columns.Pairwise fun a b => ¬ Text.SameLetters a b) :
    resolveOrder columns given = .ok t ↔ given.StandsFor columns t := by
  obtain ⟨field, direction⟩ := t
  unfold resolveOrder
  constructor
  · intro hok
    split at hok
    · contradiction
    · rename_i name hname
      obtain ⟨d, hd, hok⟩ := bind_eq_ok.mp hok
      obtain ⟨rfl, rfl⟩ := OrderTerm.mk.inj (pure_eq_ok.mp hok)
      obtain ⟨hmem, hsame⟩ := (find?_sameLetters_eq_some h).mp hname
      exact ⟨hmem, hsame, resolveDirection_eq_ok.mp hd⟩
  · rintro ⟨hmem, hsame, hdirection⟩
    have hname := (find?_sameLetters_eq_some h).mpr ⟨hmem, hsame⟩
    rw [hname]
    exact bind_eq_ok.mpr ⟨direction, resolveDirection_eq_ok.mpr hdirection, rfl⟩

/-! ## Requests -/

/-- The checks of an optional part pass exactly if the part is missing or passes. -/
theorem forM_option_eq_ok {f : α → Except ε Unit} {o : Option α} :
    o.forM f = .ok () ↔ ∀ a ∈ o, f a = .ok () := by
  cases o with
  | none => exact ⟨fun _ => nofun, fun _ => rfl⟩
  | some a => simp [Option.forM]

/-- A range of days passes exactly if its days are in order. -/
theorem checkRange_eq_ok {range : DateRange} :
    checkRange range = .ok () ↔
      ∀ start ∈ range.start, ∀ stop ∈ range.stop, ¬ stop < start := by
  unfold checkRange DateRange.inversion?
  cases range.start with
  | none => simp
  | some start =>
    cases range.stop with
    | none => simp
    | some stop =>
      by_cases h : stop < start
      · simp [h]
      · simp [h]

/-- A limit passes exactly if it is in its range. -/
theorem checkLimit_eq_ok {n : Int} : checkLimit n maxLimit = .ok () ↔ 1 ≤ n ∧ n ≤ maxLimit := by
  rw [checkLimit]
  split
  · rename_i h
    simp
    omega
  · rename_i h
    simp
    omega

/-- An offset passes exactly if it is not negative. -/
theorem checkOffset_eq_ok {n : Int} : checkOffset n = .ok () ↔ 0 ≤ n := by
  rw [checkOffset]
  split
  · rename_i h
    simp
    omega
  · rename_i h
    simp
    omega

/-- An entry of a request resolves to the filters that it stands for. -/
theorem resolveFilter_eq_ok_iff_standsForOn {field : String} {input : FilterInput}
    {filters : List Filter} :
    resolveFilter c field input = .ok filters ↔ input.StandsForOn c field filters := by
  simp only [resolveFilter_eq_ok, resolveConditions_eq_ok]
  rfl

/-- The entries of a request resolve to the filters that they stand for, entry by entry. -/
theorem mapM_resolveFilter_eq_ok {entries : List (String × FilterInput)}
    {groups : List (List Filter)} :
    entries.mapM (fun f => resolveFilter c f.1 f.2) = .ok groups ↔
      List.Forall₂ (fun entry => entry.2.StandsForOn c entry.1) entries groups := by
  simp only [mapM_eq_ok, resolveFilter_eq_ok_iff_standsForOn]

namespace QueryRequest

/-- An admissible request stands for a query. -/
theorem Admissible.exists_standsFor (h : r.Admissible c maxLimit) : ∃ q, r.StandsFor c q := by
  obtain ⟨groups, hgroups⟩ : ∃ groups,
      List.Forall₂ (fun entry => entry.2.StandsForOn c entry.1) r.filters.entries groups := by
    refine exists_forall₂_iff.mpr fun entry hentry => ?_
    obtain ⟨target, htarget, hshape⟩ := h.filters entry hentry
    obtain ⟨conditions, hconditions⟩ := FilterInput.wellShaped_iff.mp hshape
    exact ⟨conditions.map (Filter.mk entry.1), target, conditions, htarget, hconditions, rfl⟩
  obtain ⟨orderBy, horder⟩ : ∃ orderBy,
      List.Forall₂ (OrderInput.StandsFor (r.columns c)) (r.orderBy.getD []) orderBy := by
    refine exists_forall₂_iff.mpr fun given hgiven => ?_
    obtain ⟨⟨name, hname, hsame⟩, hdirection⟩ := h.orderBy given hgiven
    obtain ⟨direction, hnamed⟩ := Direction.exists_isNamedBy_iff.mpr hdirection
    exact ⟨⟨name, direction⟩, hname, hsame, hnamed⟩
  exact ⟨⟨r.dimensions.eraseDups, (r.selections c).eraseDups, groups.flatten, r.dateRange, orderBy,
    r.limit, r.offset⟩, {
      dimensions := rfl
      metrics := rfl
      filters := ⟨groups, rfl, hgroups⟩
      dateRange := rfl
      orderBy := horder
      limit := rfl
      offset := rfl }⟩

/-- The columns of the query that a request stands for are those of the request. -/
theorem StandsFor.outputNames_eq (h : r.StandsFor c q) :
    outputNames q.dimensions q.metrics = r.columns c := by
  rw [outputNames, columns, h.dimensions, h.metrics]

/-- What a request is resolved to is the query that it stands for. -/
theorem Resolves.standsFor (h : r.Resolves c maxLimit q) : r.StandsFor c q := by
  have hdimensions : q.dimensions = r.dimensions.eraseDups := by
    obtain ⟨names, hnames, heq⟩ := h.dimensions
    rw [heq, (mapM_resolveDimension_eq_ok.mp hnames).2, distinct_eq_eraseDups]
  have hmetrics : q.metrics = (r.selections c).eraseDups := by
    obtain ⟨found, hfound, heq⟩ := h.metrics
    rw [heq, (mapM_eq_ok_iff_filterMap.mp hfound).2, distinct_eq_eraseDups, selections]
  have hcolumns : outputNames q.dimensions q.metrics = r.columns c := by
    rw [outputNames, hdimensions, hmetrics, columns]
  have hnames := repeatedName?_eq_none.mp h.names
  obtain ⟨groups, hgroups, hflatten⟩ := h.filters
  refine {
    dimensions := hdimensions
    metrics := hmetrics
    filters := ⟨groups, hflatten, mapM_resolveFilter_eq_ok.mp hgroups⟩
    dateRange := h.dateRange.1
    orderBy := ?_
    limit := h.limit.1
    offset := h.offset.1 }
  have horder := mapM_eq_ok.mp h.orderBy
  simp only [resolveOrder_eq_ok hnames] at horder
  rwa [hcolumns] at horder

/-- A request that is resolved is admissible. -/
theorem Resolves.admissible (h : r.Resolves c maxLimit q) : r.Admissible c maxLimit := by
  have hq := h.standsFor
  have hselected := h.selected
  obtain ⟨names, hnames, -⟩ := h.dimensions
  obtain ⟨found, hfound, -⟩ := h.metrics
  have hmetrics := (mapM_eq_ok_iff_filterMap.mp hfound).1
  refine {
    dimensions := (mapM_resolveDimension_eq_ok.mp hnames).1
    metrics := hmetrics
    selected := ?_
    names := hq.outputNames_eq ▸ repeatedName?_eq_none.mp h.names
    filters := fun entry hentry => ?_
    dateRange := fun range hrange =>
      checkRange_eq_ok.mp (forM_option_eq_ok.mp h.dateRange.2 range hrange)
    orderBy := fun given hgiven => ?_
    limit := fun n hn => checkLimit_eq_ok.mp (forM_option_eq_ok.mp h.limit.2 n hn)
    offset := fun n hn => checkOffset_eq_ok.mp (forM_option_eq_ok.mp h.offset.2 n hn) }
  · by_contra hnone
    simp only [not_or, not_not] at hnone
    have hmissing : q.dimensions = [] ∧ q.metrics = [] := by
      simp [hq.dimensions, hq.metrics, selections, hnone]
    simp [hmissing] at hselected
  · obtain ⟨groups, -, hgroups⟩ := hq.filters
    obtain ⟨group, target, conditions, htarget, hconditions, -⟩ :=
      exists_forall₂_iff.mp ⟨groups, hgroups⟩ entry hentry
    exact ⟨target, htarget, FilterInput.wellShaped_iff.mpr ⟨conditions, hconditions⟩⟩
  · obtain ⟨t, ht⟩ := exists_forall₂_iff.mp ⟨_, hq.orderBy⟩ given hgiven
    exact ⟨⟨t.field, ht.column, ht.named⟩, Direction.exists_isNamedBy_iff.mp ⟨_, ht.direction⟩⟩

/-- An admissible request is resolved to the query that it stands for. -/
theorem Admissible.resolves (h : r.Admissible c maxLimit) (hq : r.StandsFor c q) :
    r.Resolves c maxLimit q := by
  have hfound := mapM_eq_ok_iff_filterMap.mpr ⟨h.metrics, rfl⟩
  have hcolumns := hq.outputNames_eq
  obtain ⟨groups, hflatten, hgroups⟩ := hq.filters
  refine {
    dimensions := ⟨_, mapM_resolveDimension_eq_ok.mpr ⟨h.dimensions, rfl⟩, ?_⟩
    metrics := ⟨_, hfound, ?_⟩
    selected := ?_
    names := ?_
    filters := ⟨groups, mapM_resolveFilter_eq_ok.mpr hgroups, hflatten⟩
    dateRange := ⟨hq.dateRange, forM_option_eq_ok.mpr fun range hrange =>
      checkRange_eq_ok.mpr (h.dateRange range hrange)⟩
    orderBy := ?_
    limit := ⟨hq.limit, forM_option_eq_ok.mpr fun n hn => checkLimit_eq_ok.mpr (h.limit n hn)⟩
    offset := ⟨hq.offset, forM_option_eq_ok.mpr fun n hn => checkOffset_eq_ok.mpr (h.offset n hn)⟩ }
  · rw [hq.dimensions, distinct_eq_eraseDups]
  · rw [hq.metrics, distinct_eq_eraseDups, selections]
  · -- Every token selects a metric, so there are metrics if there are tokens.
    have hlength : r.metrics.length = (r.selections c).length := (mapM_eq_ok.mp hfound).length_eq
    have hmetrics : q.metrics = [] ↔ r.metrics = [] := by
      rw [hq.metrics, eraseDups_eq_nil, ← List.length_eq_zero_iff, ← hlength,
        List.length_eq_zero_iff]
    have hdimensions : q.dimensions = [] ↔ r.dimensions = [] := by
      rw [hq.dimensions, eraseDups_eq_nil]
    rw [Bool.and_eq_false_iff, List.isEmpty_eq_false_iff, List.isEmpty_eq_false_iff]
    exact h.selected.imp (mt hdimensions.mp) (mt hmetrics.mp)
  · rw [hcolumns]
    exact repeatedName?_eq_none.mpr h.names
  · rw [hcolumns, mapM_eq_ok]
    simpa only [resolveOrder_eq_ok h.names] using hq.orderBy

/-- A request is resolved exactly if it is admissible, and then to the query that it stands for. -/
theorem resolve_admissible (c : Catalog) (maxLimit : Int) (r : QueryRequest) :
    ((∃ q, r.resolve c maxLimit = .ok q) ↔ r.Admissible c maxLimit) ∧
      ∀ q, r.resolve c maxLimit = .ok q ↔ r.Admissible c maxLimit ∧ r.StandsFor c q := by
  have hquery (q : ResolvedQuery) :
      r.resolve c maxLimit = .ok q ↔ r.Admissible c maxLimit ∧ r.StandsFor c q := by
    rw [resolve_eq_ok]
    exact ⟨fun h => ⟨h.admissible, h.standsFor⟩, fun h => h.1.resolves h.2⟩
  refine ⟨?_, hquery⟩
  constructor
  · rintro ⟨q, hq⟩
    exact ((hquery q).mp hq).1
  · intro h
    obtain ⟨q, hq⟩ := h.exists_standsFor
    exact ⟨q, (hquery q).mpr ⟨h, hq⟩⟩

end QueryRequest

end SalesQuery
