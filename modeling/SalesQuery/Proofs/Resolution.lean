import SalesQuery.Query.Resolve
import SalesQuery.Proofs.Success

/-!
# What a resolved request is made of

`QueryRequest.resolve` looks at the parts of a request one after the other and stops at the first
fault. `resolve_eq_ok` states at once all that holds of a request that is resolved, and the lemmas
after it trace the names of the resolved query back to the catalog and the tokens.
-/

namespace SalesQuery

/-- What `QueryRequest.resolve` has checked of a request, and the query that it has made of it. -/
structure QueryRequest.Resolves (c : Catalog) (maxLimit : Int) (r : QueryRequest)
    (q : ResolvedQuery) : Prop where
  /-- The dimensions are the tokens, which the catalog has, each once. -/
  dimensions : ∃ names, r.dimensions.mapM (resolveDimension c) = .ok names ∧
    q.dimensions = distinct names
  /-- The metrics are what the tokens select, each once. -/
  metrics : ∃ selections, r.metrics.mapM (resolveMetric c) = .ok selections ∧
    q.metrics = distinct selections
  /-- Something is selected. -/
  selected : (q.dimensions.isEmpty && q.metrics.isEmpty) = false
  /-- No two columns have the same name. -/
  names : repeatedName? [] (outputNames q.dimensions q.metrics) = none
  /-- The filters are those of the entries, in the order of their fields. -/
  filters : ∃ groups, r.filters.entries.mapM (fun f => resolveFilter c f.1 f.2) = .ok groups ∧
    q.filters = groups.flatten
  /-- The range of days is kept, and in order. -/
  dateRange : q.dateRange = r.dateRange ∧ r.dateRange.forM checkRange = .ok ()
  /-- The order is over the columns. -/
  orderBy : (r.orderBy.getD []).mapM (resolveOrder (outputNames q.dimensions q.metrics)) =
    .ok q.orderBy
  /-- The limit is kept, and in its range. -/
  limit : q.limit = r.limit ∧ r.limit.forM (checkLimit · maxLimit) = .ok ()
  /-- The offset is kept, and not negative. -/
  offset : q.offset = r.offset ∧ r.offset.forM checkOffset = .ok ()

/-- A request is resolved exactly if all its parts pass their checks. -/
theorem resolve_eq_ok {c : Catalog} {maxLimit : Int} {r : QueryRequest} {q : ResolvedQuery} :
    r.resolve c maxLimit = .ok q ↔ r.Resolves c maxLimit q := by
  constructor
  · intro h
    unfold QueryRequest.resolve at h
    obtain ⟨names, hnames, h⟩ := bind_eq_ok.mp h
    obtain ⟨selections, hselections, h⟩ := bind_eq_ok.mp h
    dsimp only at h
    split at h
    · obtain ⟨_, h, _⟩ := bind_eq_ok.mp h
      contradiction
    · rename_i hselected
      split at h
      · obtain ⟨_, h, _⟩ := bind_eq_ok.mp h
        contradiction
      · rename_i hnone
        obtain ⟨groups, hgroups, h⟩ := bind_eq_ok.mp h
        obtain ⟨⟨⟩, hrange, h⟩ := bind_eq_ok.mp h
        obtain ⟨orderBy, horder, h⟩ := bind_eq_ok.mp h
        obtain ⟨⟨⟩, hlimit, h⟩ := bind_eq_ok.mp h
        obtain ⟨⟨⟩, hoffset, h⟩ := bind_eq_ok.mp h
        obtain rfl := pure_eq_ok.mp h
        exact {
          dimensions := ⟨names, hnames, rfl⟩
          metrics := ⟨selections, hselections, rfl⟩
          selected := Bool.eq_false_iff.mpr hselected
          names := hnone
          filters := ⟨groups, hgroups, rfl⟩
          dateRange := ⟨rfl, hrange⟩
          orderBy := horder
          limit := ⟨rfl, hlimit⟩
          offset := ⟨rfl, hoffset⟩ }
  · intro h
    obtain ⟨dimensions, metrics, filters, dateRange, orderBy, limit, offset⟩ := q
    obtain ⟨⟨names, hnames, rfl⟩, ⟨selections, hselections, rfl⟩, hselected, hnone,
      ⟨groups, hgroups, rfl⟩, ⟨rfl, hrange⟩, horder, ⟨rfl, hlimit⟩, ⟨rfl, hoffset⟩⟩ := h
    dsimp only at hselected hnone horder hrange hlimit hoffset
    unfold QueryRequest.resolve
    refine bind_eq_ok.mpr ⟨names, hnames, bind_eq_ok.mpr ⟨selections, hselections, ?_⟩⟩
    dsimp only
    rw [if_neg (Bool.eq_false_iff.mp hselected), hnone]
    -- The checks that are left return nothing, and the query is what has been collected.
    refine bind_eq_ok.mpr ⟨groups, hgroups, bind_eq_ok.mpr ⟨(), hrange, bind_eq_ok.mpr
      ⟨orderBy, horder, bind_eq_ok.mpr ⟨(), hlimit, bind_eq_ok.mpr ⟨(), hoffset, rfl⟩⟩⟩⟩⟩

namespace QueryRequest.Resolves

variable {c : Catalog} {maxLimit : Int} {r : QueryRequest} {q : ResolvedQuery}

/-- With other filters, a request that is resolved stops where these do, or is resolved to the same
query with what they stand for. -/
theorem resolve_filters (h : r.Resolves c maxLimit q) (filters : Dictionary FilterInput) :
    QueryRequest.resolve c maxLimit { r with filters } =
      (fun groups => { q with filters := groups.flatten }) <$>
        filters.entries.mapM fun f => resolveFilter c f.1 f.2 := by
  cases hgroups : filters.entries.mapM fun f => resolveFilter c f.1 f.2 with
  | ok groups => exact resolve_eq_ok.mpr { h with filters := ⟨groups, hgroups, rfl⟩ }
  | error fault =>
    -- Only the parts that are looked at before the filters matter.
    obtain ⟨names, hnames, hdimensions⟩ := h.dimensions
    obtain ⟨selections, hselections, hmetrics⟩ := h.metrics
    have hselected := h.selected
    have hnone := h.names
    rw [hdimensions, hmetrics] at hselected hnone
    unfold QueryRequest.resolve
    simp only [hnames, hselections, hgroups, hnone, hselected, Bool.false_eq_true, if_false, bind,
      Except.bind, Functor.map, Except.map]

/-- With other days, a request that is resolved is resolved to the same query over these days, unless
they are in the wrong order. -/
theorem resolve_dateRange (h : r.Resolves c maxLimit q) (dateRange : Option DateRange) :
    QueryRequest.resolve c maxLimit { r with dateRange } =
      (fun _ => { q with dateRange }) <$> dateRange.forM checkRange := by
  cases hrange : dateRange.forM checkRange with
  | ok => exact resolve_eq_ok.mpr { h with dateRange := ⟨rfl, hrange⟩ }
  | error fault =>
    -- Only the parts that are looked at before the days matter.
    obtain ⟨names, hnames, hdimensions⟩ := h.dimensions
    obtain ⟨selections, hselections, hmetrics⟩ := h.metrics
    obtain ⟨groups, hgroups, -⟩ := h.filters
    have hselected := h.selected
    have hnone := h.names
    rw [hdimensions, hmetrics] at hselected hnone
    unfold QueryRequest.resolve
    simp only [hnames, hselections, hgroups, hnone, hselected, hrange, Bool.false_eq_true, if_false,
      bind, Except.bind, Functor.map, Except.map]

end QueryRequest.Resolves

/-- An entry is resolved exactly if the catalog has its field and all its conditions are
resolved. -/
theorem resolveFilter_eq_ok {c : Catalog} {field : String} {input : FilterInput}
    {filters : List Filter} :
    resolveFilter c field input = .ok filters ↔ ∃ target conditions,
      c.filterField? field = some target ∧ resolveConditions target.kind input = .ok conditions ∧
      conditions.map (fun condition => ⟨field, condition⟩) = filters := by
  rw [resolveFilter]
  split
  · rename_i hnone
    simp [hnone]
  · rename_i target htarget
    split
    · rename_i hfault
      simp [htarget, hfault]
    · rename_i conditions hconditions
      simp [htarget, hconditions]

/-! ## Where the names come from -/

/-- Leaving out repetitions keeps every element. -/
theorem mem_distinct {α : Type} [DecidableEq α] {l : List α} {a : α} : a ∈ distinct l ↔ a ∈ l := by
  have hfold : ∀ (l seen : List α),
      a ∈ l.foldl (fun seen a => if a ∈ seen then seen else a :: seen) seen ↔ a ∈ seen ∨ a ∈ l := by
    intro l
    induction l with
    | nil => simp
    | cons b l ih =>
      intro seen
      rw [List.foldl_cons, ih]
      split
      all_goals
        simp only [List.mem_cons]
        grind
  rw [distinct, List.mem_reverse, hfold]
  simp

variable {c : Catalog} {maxLimit : Int} {r : QueryRequest} {q : ResolvedQuery}

/-- The catalog has every dimension of a resolved query. -/
theorem QueryRequest.Resolves.dimension_known (h : r.Resolves c maxLimit q) {name : String}
    (hname : name ∈ q.dimensions) : (c.dimension? name).isSome := by
  obtain ⟨names, hnames, heq⟩ := h.dimensions
  rw [heq, mem_distinct] at hname
  obtain ⟨token, _, htoken⟩ := exists_of_mem_mapM hnames hname
  rw [resolveDimension] at htoken
  split at htoken
  · cases htoken
    assumption
  · contradiction

/-- Every metric of a resolved query is what some token of the request selects. -/
theorem QueryRequest.Resolves.metric_token (h : r.Resolves c maxLimit q) {m : MetricSelection}
    (hm : m ∈ q.metrics) : ∃ token ∈ r.metrics, resolveMetric c token = .ok m := by
  obtain ⟨selections, hselections, heq⟩ := h.metrics
  rw [heq, mem_distinct] at hm
  exact exists_of_mem_mapM hselections hm

/-- A resolved query is ordered by its own columns. -/
theorem QueryRequest.Resolves.order_field (h : r.Resolves c maxLimit q) {t : OrderTerm}
    (ht : t ∈ q.orderBy) : t.field ∈ outputNames q.dimensions q.metrics := by
  obtain ⟨input, _, hinput⟩ := exists_of_mem_mapM h.orderBy ht
  rw [resolveOrder] at hinput
  split at hinput
  · contradiction
  · rename_i field hfield
    obtain ⟨direction, _, heq⟩ := bind_eq_ok.mp hinput
    obtain rfl := pure_eq_ok.mp heq
    exact List.mem_of_find?_eq_some hfield

end SalesQuery
