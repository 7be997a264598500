import SalesQuery.Catalog.Restaurant
import SalesQuery.Proofs.AggregateWhitelist
import SalesQuery.Proofs.CatalogConsistency
import SalesQuery.Proofs.FilterPlacement
import SalesQuery.Proofs.Resolution

/-!
# When a query does not compile

The compiler looks every name of a query up again, though the names of a request have been resolved
before. Over a consistent catalog its three passes stop exactly at the first name that the catalog
does not have (`ResolvedQuery.fault?_compile`): what an entry of the catalog needs can always be
joined, so only names can be missing. A request that has been resolved over the same catalog has no
such name, so it compiles.
-/

namespace SalesQuery

/-! ## The fault of a computation -/

/-- The fault that a computation stops at, if it does. -/
def fault? {ε α : Type} : Except ε α → Option ε
  | .ok _ => none
  | .error e => some e

section Fault

variable {ε α β : Type} {x : Except ε α}

/-- A computation fails with the fault that it stops at. -/
theorem fault?_eq_some {e : ε} : fault? x = some e ↔ x = .error e := by
  cases x <;> simp [fault?]

/-- A computation that stops at no fault returns. -/
theorem fault?_eq_none : fault? x = none ↔ ∃ a, x = .ok a := by
  cases x <;> simp [fault?]

/-- Mapping keeps the fault. -/
theorem fault?_map {f : α → β} : fault? (f <$> x) = fault? x := by
  cases x <;> rfl

/-- If one computation stops at the first of some entries that has a property, and the next one at
the first of some others, then both in sequence stop at the first of all. -/
theorem fault?_bind {f : α → Except ε β} {p : ε → Bool} {l m : List ε}
    (hx : fault? x = l.find? p) (hf : ∀ a, fault? (f a) = m.find? p) :
    fault? (x >>= f) = (l ++ m).find? p := by
  rw [List.find?_append, ← hx]
  cases x with
  | error e => rfl
  | ok a => exact hf a

end Fault

/-! ## What a query names -/

/-- Whether the catalog does not have an entry. -/
def Catalog.lacks (c : Catalog) : MissingEntry → Bool
  | .dimension name => (c.dimension? name).isNone
  | .metric name => (c.metric? name).isNone
  | .join aliasName => !c.knowsAlias aliasName
  | .filterField name => (c.filterField? name).isNone

/-- What a selected metric names: a metric of the catalog, or the alias of a qualifier. -/
def MetricSelection.named : MetricSelection → List MissingEntry
  | .catalog name => [.metric name]
  | .custom aggregate => aggregate.qualifier.toList.map .join

/-- What a query names, in the order of dimensions, metrics and filters. -/
def ResolvedQuery.named (q : ResolvedQuery) : List MissingEntry :=
  q.dimensions.map .dimension ++ q.metrics.flatMap MetricSelection.named ++
    q.filters.map fun f => .filterField f.field

/-! ## The passes -/

variable {c : Catalog}

namespace JoinPlan

/-- Over a well formed catalog the chain of an alias is missing only if the alias is not known. -/
theorem fault?_chainFor (hc : c.WellFormed) (needed : Option String) :
    fault? (chainFor c needed) = (needed.toList.map MissingEntry.join).find? c.lacks := by
  cases needed with
  | none => rfl
  | some aliasName =>
    have hknown : (c.joinChain? aliasName).isSome ↔ c.knowsAlias aliasName = true :=
      hc.isSome_joinChain?_iff
    rw [chainFor, chain]
    cases hchain : c.joinChain? aliasName with
    | none =>
      rw [hchain] at hknown
      have hlacks : c.lacks (.join aliasName) = true := by
        rw [Catalog.lacks, Bool.not_eq_true']
        exact Bool.eq_false_iff.mpr fun h => by simpa using hknown.mpr h
      rw [Option.toList_some, List.map_singleton, List.find?_cons_of_pos hlacks]
      rfl
    | some joins =>
      rw [hchain] at hknown
      have hlacks : c.lacks (.join aliasName) = false := by
        rw [Catalog.lacks, hknown.mp rfl]
        rfl
      rw [Option.toList_some, List.map_singleton,
        List.find?_cons_of_neg (by rw [hlacks]; exact Bool.false_ne_true)]
      rfl

/-- Over a well formed catalog nothing is missing for what an entry of the catalog needs. -/
theorem fault?_chainFor_of_declared (hc : c.WellFormed) {needed : Option String}
    (hneeded : ∀ a ∈ needed, a ∈ c.aliases) : fault? (chainFor c needed) = none := by
  rw [fault?_chainFor hc, List.find?_eq_none]
  simp only [List.mem_map, Option.mem_toList]
  rintro _ ⟨aliasName, ha, rfl⟩
  rw [Catalog.lacks, Catalog.knowsAlias_iff.mpr (.inr (hneeded aliasName ha))]
  exact Bool.false_ne_true

end JoinPlan

namespace ResolvedQuery

/-- One item of a pass over columns stops where its joins are missing, or else where the items after
it stop. -/
theorem fault?_planItem {plan : JoinPlan} {needed : Option String} {column : SelectItem}
    {after : JoinPlan → Except MissingEntry (JoinPlan × List SelectItem)}
    {l m : List MissingEntry} (hneeded : fault? (JoinPlan.chainFor c needed) = l.find? c.lacks)
    (hafter : ∀ plan, fault? (after plan) = m.find? c.lacks) :
    fault? (do
      let plan ← plan.require c needed
      let (plan, columns) ← after plan
      return (plan, column :: columns)) = (l ++ m).find? c.lacks := by
  rw [JoinPlan.require_eq]
  refine fault?_bind (by rw [fault?_map, hneeded]) fun plan => ?_
  show fault? ((fun r : JoinPlan × List SelectItem => (r.1, column :: r.2)) <$> after plan) = _
  rw [fault?_map, hafter]

/-- The pass over the dimensions stops at the first one that the catalog does not have. -/
theorem fault?_planDimensions (hc : c.WellFormed) {plan : JoinPlan} {names : List String} :
    fault? (planDimensions c plan names) =
      (names.map MissingEntry.dimension).find? c.lacks := by
  induction names generalizing plan with
  | nil => rfl
  | cons name rest ih =>
    rw [planDimensions, List.map_cons]
    cases hd : c.dimension? name with
    | none =>
      have hlacks : c.lacks (.dimension name) = true := by simp [Catalog.lacks, hd]
      rw [List.find?_cons_of_pos hlacks]
      rfl
    | some d =>
      have hlacks : ¬ c.lacks (.dimension name) = true := by simp [Catalog.lacks, hd]
      have hjoin := JoinPlan.fault?_chainFor_of_declared hc
        (hc.dimension_join (List.mem_of_find?_eq_some hd))
      rw [List.find?_cons_of_neg hlacks]
      exact fault?_planItem (l := []) hjoin fun _ => ih

/-- The pass over the metrics stops at the first one that the catalog does not have, or whose
qualifier is not known. -/
theorem fault?_planMetrics (hc : c.WellFormed) {plan : JoinPlan} {metrics : List MetricSelection} :
    fault? (planMetrics c plan metrics) =
      (metrics.flatMap MetricSelection.named).find? c.lacks := by
  induction metrics generalizing plan with
  | nil => rfl
  | cons metric rest ih =>
    rw [List.flatMap_cons]
    cases metric with
    | custom aggregate =>
      rw [planMetrics]
      exact fault?_planItem (JoinPlan.fault?_chainFor hc _) fun _ => ih
    | catalog name =>
      rw [planMetrics, MetricSelection.named, List.singleton_append]
      cases hm : c.metric? name with
      | none =>
        have hlacks : c.lacks (.metric name) = true := by simp [Catalog.lacks, hm]
        rw [List.find?_cons_of_pos hlacks]
        rfl
      | some m =>
        have hlacks : ¬ c.lacks (.metric name) = true := by simp [Catalog.lacks, hm]
        have hjoin := JoinPlan.fault?_chainFor_of_declared hc
          (hc.metric_join (List.mem_of_find?_eq_some hm))
        rw [List.find?_cons_of_neg hlacks]
        exact fault?_planItem (l := []) hjoin fun _ => ih

/-- The target of a filter is missing only if the catalog does not have its field. -/
theorem fault?_filterTarget (hc : c.WellFormed) (field : String) :
    fault? (filterTarget c field) = [MissingEntry.filterField field].find? c.lacks := by
  rw [filterTarget]
  cases hfield : c.filterField? field with
  | none =>
    have hlacks : c.lacks (.filterField field) = true := by simp [Catalog.lacks, hfield]
    rw [List.find?_cons_of_pos hlacks]
    rfl
  | some found =>
    have hlacks : ¬ c.lacks (.filterField field) = true := by simp [Catalog.lacks, hfield]
    rw [List.find?_cons_of_neg hlacks, List.find?_nil, fault?_map]
    exact JoinPlan.fault?_chainFor_of_declared hc (hc.filterField_join hfield)

/-- The pass over the filters stops at the first one whose field the catalog does not have. -/
theorem fault?_planFilters (hc : c.WellFormed) {plan : JoinPlan} {filters : List Filter} :
    fault? (planFilters c plan filters) =
      (filters.map fun f => MissingEntry.filterField f.field).find? c.lacks := by
  induction filters generalizing plan with
  | nil => rfl
  | cons f rest ih =>
    rw [planFilters_cons, List.map_cons, ← List.singleton_append]
    refine fault?_bind (fault?_filterTarget hc f.field) fun target => ?_
    rw [fault?_map, ih]

/-- Over a well formed catalog, a query stops the compiler at the first name that the catalog does
not have. -/
theorem fault?_compile (hc : c.WellFormed) (q : ResolvedQuery) :
    fault? (q.compile c) = q.named.find? c.lacks := by
  rw [compile, fault?_map, statement, named, List.append_assoc]
  refine fault?_bind (fault?_planDimensions hc) fun dimensions => ?_
  refine fault?_bind (fault?_planMetrics hc) fun metrics => ?_
  rw [← List.append_nil (q.filters.map _)]
  exact fault?_bind (fault?_planFilters hc) fun filters => rfl

end ResolvedQuery

/-! ## Requests that have been resolved -/

/-- The catalog has the field of every filter of a resolved query. -/
theorem QueryRequest.Resolves.filterField_known {maxLimit : Int} {r : QueryRequest}
    {q : ResolvedQuery} (h : r.Resolves c maxLimit q) {f : Filter} (hf : f ∈ q.filters) :
    (c.filterField? f.field).isSome := by
  obtain ⟨groups, hgroups, heq⟩ := h.filters
  rw [heq] at hf
  obtain ⟨group, hgroup, hf⟩ := List.mem_flatten.mp hf
  obtain ⟨⟨field, input⟩, _, hresolve⟩ := exists_of_mem_mapM hgroups hgroup
  obtain ⟨target, conditions, htarget, -, rfl⟩ := resolveFilter_eq_ok.mp hresolve
  obtain ⟨condition, -, rfl⟩ := List.mem_map.mp hf
  rw [htarget]
  rfl

/-- The catalog has all that a resolved query names. -/
theorem QueryRequest.Resolves.not_lacks {maxLimit : Int} {r : QueryRequest} {q : ResolvedQuery}
    (h : r.Resolves c maxLimit q) : ∀ entry ∈ q.named, ¬ c.lacks entry = true := by
  simp only [ResolvedQuery.named, List.forall_mem_append, List.mem_map, List.mem_flatMap]
  refine ⟨⟨?_, ?_⟩, ?_⟩
  · rintro _ ⟨name, hname, rfl⟩
    simpa [Catalog.lacks, Option.isSome_iff_ne_none] using h.dimension_known hname
  · rintro entry ⟨m, hm, hentry⟩
    obtain ⟨token, _, htoken⟩ := h.metric_token hm
    rcases resolveMetric_eq_ok htoken with ⟨rfl, hmetric⟩ | ⟨aggregate, rfl, _, p, hp⟩
    · obtain rfl := List.mem_singleton.mp hentry
      simpa [Catalog.lacks, Option.isSome_iff_ne_none] using hmetric
    · obtain ⟨qualifier, hqualifier, rfl⟩ := List.mem_map.mp hentry
      simpa [Catalog.lacks] using hp.known qualifier (Option.mem_toList.mp hqualifier)
  · rintro _ ⟨f, hf, rfl⟩
    simpa [Catalog.lacks, Option.isSome_iff_ne_none] using h.filterField_known hf

/-- Over a consistent catalog, a query does not compile exactly if it names what the catalog does
not have, and the fault is the first such name in the order of dimensions, metrics and filters. A
request that has been resolved over the catalog always compiles. -/
theorem ResolvedQuery.compile_faults (hc : c.Consistent) :
    (∀ (q : ResolvedQuery) (entry : MissingEntry),
        q.compile c = .error entry ↔ q.named.find? c.lacks = some entry) ∧
      ∀ (maxLimit : Int) (r : QueryRequest) (q : ResolvedQuery),
        r.resolve c maxLimit = .ok q → ∃ out, q.compile c = .ok out := by
  have hwell := Catalog.consistent_iff.mp hc
  refine ⟨fun q entry => ?_, fun maxLimit r q hq => ?_⟩
  · rw [← fault?_eq_some, ResolvedQuery.fault?_compile hwell]
  · rw [← fault?_eq_none, ResolvedQuery.fault?_compile hwell, List.find?_eq_none]
    exact (resolve_eq_ok.mp hq).not_lacks

/-- A query made for another catalog: it names a metric, an alias and a field that the restaurant
catalog does not have. -/
def profitByChannel : ResolvedQuery where
  dimensions := ["channel"]
  metrics := [.catalog "faturamento", .custom ⟨"SUM(x.amount) AS total", "total", some "x"⟩,
    .catalog "lucro"]
  filters := [⟨"fornecedor", .equals (.text "Central")⟩]
  dateRange := none
  orderBy := []
  limit := none
  offset := none

/-- A request with a qualified aggregate and two filters, one of them over the lines of a sale. -/
def customersOfProduct : QueryRequest where
  metrics := ["COUNT(DISTINCT Cu.id) AS clientes"]
  dimensions := ["store"]
  filters := .ofList [("produto", .list [.string "Pizza", .string "Suco"]),
    ("hora", .operators (.ofList [("GTE", .int 18), ("lt", .int 23)]))]

/-- The query for another catalog stops at the alias `x`, which comes before the metric `lucro`; the
request for customers compiles. -/
theorem ResolvedQuery.compile_faults_restaurant :
    Catalog.restaurant.Consistent ∧
      profitByChannel.compile Catalog.restaurant = .error (.join "x") ∧
      ∃ q out, customersOfProduct.resolve Catalog.restaurant 1000 = .ok q ∧
        q.compile Catalog.restaurant = .ok out := by
  have hc : Catalog.restaurant.Consistent := by
    unfold Catalog.Consistent
    decide +kernel
  obtain ⟨hfault, hcompiles⟩ := compile_faults hc
  refine ⟨hc, (hfault profitByChannel (.join "x")).mpr (by decide +kernel), ?_⟩
  have hok : (customersOfProduct.resolve Catalog.restaurant 1000).isOk := by decide +kernel
  cases hq : customersOfProduct.resolve Catalog.restaurant 1000 with
  | error fault =>
    rw [hq] at hok
    contradiction
  | ok q =>
    obtain ⟨out, hout⟩ := hcompiles 1000 customersOfProduct q hq
    exact ⟨q, out, rfl, hout⟩

end SalesQuery
