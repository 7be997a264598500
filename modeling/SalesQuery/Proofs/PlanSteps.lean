import SalesQuery.Query.Compile
import SalesQuery.Proofs.Success

/-!
# What the passes of the compiler do

A query is compiled in three passes over one join plan: dimensions, metrics and filters. The first
two only append the chains that their expressions need, so the plan after them extends the empty
plan by one list of joins (`ResolvedQuery.selectedJoins`). What a filter does depends on its chain
and on the plan it meets: it joins a part of the chain (`JoinPlan.direct`) and puts its condition
into a semi-join over the rest (`JoinPlan.wrap`). `statement_eq_ok` states the outcome of all three.
-/

namespace SalesQuery

/-! ## Chains -/

namespace Catalog

/-- The joins that an expression needs: the chain of its alias, nothing without one. An alias that
cannot be reached needs nothing that could be joined. -/
def reach (c : Catalog) : Option String → List Join
  | none => []
  | some aliasName => (c.joinChain? aliasName).getD []

/-- An expression's joins can be found. -/
def CanReach (c : Catalog) (needed : Option String) : Prop :=
  ∀ aliasName ∈ needed, (c.joinChain? aliasName).isSome

end Catalog

/-- The joins of a chain back to a join without dependency are those that the list has under their
aliases. -/
theorem find?_of_mem_chainBack {joins : List Join} {limit : Nat} {aliasName : String}
    {chain : List Join} (h : chainBack joins limit aliasName = some chain) {j : Join}
    (hj : j ∈ chain) : joins.find? (fun k => k.aliasName = j.aliasName) = some j := by
  induction limit generalizing aliasName chain with
  | zero => contradiction
  | succ limit ih =>
    rw [chainBack] at h
    obtain ⟨first, hfirst, h⟩ := Option.bind_eq_some_iff.mp h
    have halias : first.aliasName = aliasName := by simpa using List.find?_some hfirst
    have hknown : joins.find? (fun k => k.aliasName = first.aliasName) = some first := by
      rw [halias]
      exact hfirst
    split at h
    · obtain rfl := Option.some.inj h
      rwa [List.mem_singleton.mp hj]
    · obtain ⟨rest, hrest, h⟩ := Option.bind_eq_some_iff.mp h
      obtain rfl := Option.some.inj h
      rcases List.mem_cons.mp hj with rfl | hj
      · exact hknown
      · exact ih hrest hj

namespace Catalog

variable {c : Catalog}

/-- A join is known to the catalog: it is the one that the catalog has under its alias. -/
def Has (c : Catalog) (j : Join) : Prop := c.join? j.aliasName = some j

/-- Known joins with the same alias are the same. -/
theorem Has.eq {j k : Join} (hj : c.Has j) (hk : c.Has k) (h : j.aliasName = k.aliasName) :
    j = k := by
  rw [Has, h, hk] at hj
  exact (Option.some.inj hj).symm

/-- A known join is a join of the catalog. -/
theorem Has.mem {j : Join} (hj : c.Has j) : j ∈ c.joins := List.mem_of_find?_eq_some hj

/-- The joins that an expression needs are known. -/
theorem has_of_mem_reach {needed : Option String} {j : Join} (hj : j ∈ c.reach needed) :
    c.Has j := by
  cases needed with
  | none => contradiction
  | some aliasName =>
    rw [reach, joinChain?] at hj
    split at hj
    · contradiction
    · cases hback : chainBack c.joins (c.joins.length + 1) aliasName with
      | none => simp [hback] at hj
      | some chain =>
        rw [hback] at hj
        exact find?_of_mem_chainBack hback (List.mem_reverse.mp hj)

end Catalog

namespace JoinPlan

/-- The chain that an expression needs, or the fault that it cannot be found. -/
def chainFor (c : Catalog) : Option String → Except MissingEntry (List Join)
  | none => .ok []
  | some aliasName => chain c aliasName

/-- The chain is found exactly if the expression's joins can be found, and then it is these. -/
theorem chainFor_eq_ok {c : Catalog} {needed : Option String} {joins : List Join} :
    chainFor c needed = .ok joins ↔ c.CanReach needed ∧ c.reach needed = joins := by
  cases needed with
  | none => simp [chainFor, Catalog.CanReach, Catalog.reach]
  | some aliasName =>
    cases h : c.joinChain? aliasName with
    | none => simp [chainFor, chain, Catalog.CanReach, h]
    | some found => simp [chainFor, chain, Catalog.CanReach, Catalog.reach, h]

/-! ## Steps of a plan -/

/-- Extending a plan by two lists of joins is extending it by one after the other. -/
theorem extend_append (plan : JoinPlan) (l m : List Join) :
    plan.extend (l ++ m) = (plan.extend l).extend m := List.foldl_append

/-- What an expression needs is appended. -/
theorem require_eq (c : Catalog) (plan : JoinPlan) (needed : Option String) :
    plan.require c needed = plan.extend <$> chainFor c needed := by
  cases needed with
  | none => rfl
  | some aliasName =>
    show (chain c aliasName >>= fun joins => pure (plan.extend joins)) = _
    cases h : chain c aliasName with
    | error fault => simp [chainFor, h, bind, Except.bind, Functor.map, Except.map]
    | ok joins => simp [chainFor, h, bind, Except.bind, Functor.map, Except.map, pure, Except.pure]

/-- A computation that first appends what an expression needs goes on if that can be found. -/
theorem require_bind_eq_ok {α : Type} {c : Catalog} {plan : JoinPlan} {needed : Option String}
    {f : JoinPlan → Except MissingEntry α} {a : α} :
    plan.require c needed >>= f = .ok a ↔
      c.CanReach needed ∧ f (plan.extend (c.reach needed)) = .ok a := by
  rw [bind_eq_ok]
  constructor
  · rintro ⟨plan', hplan, hf⟩
    rw [require_eq] at hplan
    obtain ⟨joins, hjoins, rfl⟩ := map_eq_ok.mp hplan
    obtain ⟨hreach, rfl⟩ := chainFor_eq_ok.mp hjoins
    exact ⟨hreach, hf⟩
  · rintro ⟨hreach, hf⟩
    refine ⟨_, ?_, hf⟩
    rw [require_eq]
    exact map_eq_ok.mpr ⟨_, chainFor_eq_ok.mpr ⟨hreach, rfl⟩, rfl⟩

/-- Joins of an extended plan come from the plan or from what it is extended by. -/
theorem mem_of_mem_extend {plan : JoinPlan} {l : List Join} {j : Join} (h : j ∈ plan.extend l) :
    j ∈ plan ∨ j ∈ l := by
  induction l generalizing plan with
  | nil => exact .inl h
  | cons first rest ih =>
    rw [← List.singleton_append, extend_append] at h
    rcases ih h with h | h
    · rw [extend, List.foldl_cons, List.foldl_nil] at h
      split at h
      · exact .inl h
      · rcases List.mem_append.mp h with h | h
        · exact .inl h
        · exact .inr (List.mem_cons.mpr (.inl (List.mem_singleton.mp h)))
    · exact .inr (List.mem_cons_of_mem _ h)

/-- A chain is not split if the plan has all its joins of many rows. -/
theorem splitFanOut_eq_none {plan : JoinPlan} {chain : List Join} :
    plan.splitFanOut chain = none ↔ ∀ j ∈ chain, j.fanOut.isSome → plan.joins j.aliasName := by
  induction chain with
  | nil => simp [splitFanOut]
  | cons first rest ih =>
    rw [splitFanOut, List.forall_mem_cons, ← ih]
    cases hkey : first.fanOut with
    | none => simp
    | some key =>
      cases hjoined : plan.joins first.aliasName with
      | true => simp
      | false => simp

/-- A chain is split at its first join of many rows that the plan does not have. -/
theorem splitFanOut_eq_some {plan : JoinPlan} {chain before rest : List Join} {key : FanOut}
    {root : Join} (h : plan.splitFanOut chain = some (before, key, root, rest)) :
    chain = before ++ root :: rest ∧ root.fanOut = some key ∧
      plan.joins root.aliasName = false ∧
      ∀ j ∈ before, j.fanOut.isSome → plan.joins j.aliasName := by
  induction chain generalizing before with
  | nil => contradiction
  | cons first chain ih =>
    -- The first join stays before the split in two cases, for which this is shared.
    have hlater : (first.fanOut.isSome → plan.joins first.aliasName) →
        (plan.splitFanOut chain).map (fun s => (first :: s.1, s.2)) =
          some (before, key, root, rest) →
        first :: chain = before ++ root :: rest ∧ root.fanOut = some key ∧
          plan.joins root.aliasName = false ∧
          ∀ j ∈ before, j.fanOut.isSome → plan.joins j.aliasName := by
      intro hfirst hsplit
      obtain ⟨⟨before', key', root', rest'⟩, hs, heq⟩ := Option.map_eq_some_iff.mp hsplit
      obtain ⟨rfl, rfl, rfl, rfl⟩ := heq
      obtain ⟨hchain, hroot, hnew, hbefore⟩ := ih hs
      exact ⟨by rw [hchain, List.cons_append], hroot, hnew,
        List.forall_mem_cons.mpr ⟨hfirst, hbefore⟩⟩
    rw [splitFanOut] at h
    split at h
    · rename_i found hfound
      split at h
      · rename_i hjoined
        exact hlater (fun _ => hjoined) h
      · rename_i hnew
        obtain ⟨rfl, rfl, rfl, rfl⟩ := h
        exact ⟨rfl, hfound, Bool.eq_false_iff.mpr hnew, by simp⟩
    · rename_i hnone
      exact hlater (by simp [hnone]) h

/-- The part of a filter's chain that the filter joins: all of it, or what comes before the first
join of many rows that the plan does not have. -/
def direct (plan : JoinPlan) (chain : List Join) : List Join :=
  match plan.splitFanOut chain with
  | none => chain
  | some (before, _) => before

/-- The condition of a filter as it is placed: as it stands, or in a semi-join over the rest of the
chain from the first join of many rows that the plan does not have. -/
def wrap (plan : JoinPlan) (chain : List Join) (predicate : Predicate) : Predicate :=
  match plan.splitFanOut chain with
  | none => predicate
  | some (_, key, root, rest) => .semiJoin key root rest predicate

/-- A filter joins joins of its chain only. -/
theorem mem_of_mem_direct {plan : JoinPlan} {chain : List Join} {j : Join}
    (hj : j ∈ plan.direct chain) : j ∈ chain := by
  rw [direct] at hj
  split at hj
  · exact hj
  · rename_i before split hsplit
    obtain ⟨key, root, rest⟩ := split
    rw [(splitFanOut_eq_some hsplit).1]
    exact List.mem_append_left _ hj

/-- A filter joins a part of its chain and has its condition placed over the rest. -/
theorem place_eq (c : Catalog) (plan : JoinPlan) (needed : Option String) (predicate : Predicate) :
    plan.place c needed predicate =
      (fun chain => (plan.extend (plan.direct chain), plan.wrap chain predicate)) <$>
        chainFor c needed := by
  cases needed with
  | none => rfl
  | some aliasName =>
    rw [place, chainFor]
    cases h : chain c aliasName with
    | error fault => rfl
    | ok joins =>
      simp only [bind, Except.bind, Functor.map, Except.map, direct, wrap]
      cases plan.splitFanOut joins with
      | none => rfl
      | some split => rfl

end JoinPlan

/-! ## What dimensions, metrics and filters need -/

/-- The alias that a dimension of this name needs joined. -/
def Catalog.dimensionNeed (c : Catalog) (name : String) : Option String :=
  (c.dimension? name).bind Dimension.join

/-- The column of the dimension of this name. -/
def Catalog.dimensionColumn? (c : Catalog) (name : String) : Option SelectItem :=
  (c.dimension? name).map fun d => .aliased d.expression d.name

/-- A field may be filtered on: the catalog has it, and its joins can be found. -/
def Catalog.CanFilter (c : Catalog) (field : String) : Prop :=
  ∃ found, c.filterField? field = some found ∧ c.CanReach found.join

/-- The expression that a filter on the field compares. -/
def Catalog.filterExpression (c : Catalog) (field : String) : String :=
  ((c.filterField? field).map FilterField.expression).getD ""

/-- The chain of joins that a filter on the field needs. -/
def Catalog.filterChain (c : Catalog) (field : String) : List Join :=
  c.reach ((c.filterField? field).bind FilterField.join)

namespace MetricSelection

/-- The alias that a selected metric needs joined: a custom aggregate needs its qualifier. -/
def need (c : Catalog) : MetricSelection → Option String
  | .catalog name => (c.metric? name).bind Metric.join
  | .custom aggregate => aggregate.qualifier

/-- The column of a selected metric. -/
def column? (c : Catalog) : MetricSelection → Option SelectItem
  | .catalog name => (c.metric? name).map fun m => .aliased m.expression m.name
  | .custom aggregate => some (.verbatim aggregate.text)

end MetricSelection

namespace ResolvedQuery

/-! ## Dimensions and metrics -/

/-- One item of a pass: its joins are appended, and its column stands before those of the items
after it. -/
theorem planItem_eq_ok {c : Catalog} {plan : JoinPlan} {needed : Option String}
    {column : SelectItem} {after : JoinPlan → Except MissingEntry (JoinPlan × List SelectItem)}
    {found : Prop} {joins : List Join} {columns : List SelectItem} {r : JoinPlan × List SelectItem}
    (hafter : ∀ plan r, after plan = .ok r ↔ found ∧ r = (plan.extend joins, columns)) :
    (do
      let plan ← plan.require c needed
      let (plan, columns) ← after plan
      return (plan, column :: columns)) = .ok r ↔
      (c.CanReach needed ∧ found) ∧
        r = (plan.extend (c.reach needed ++ joins), column :: columns) := by
  rw [JoinPlan.require_bind_eq_ok, and_assoc, JoinPlan.extend_append]
  refine and_congr_right fun _ => ?_
  rw [bind_eq_ok]
  constructor
  · rintro ⟨rest, hrest, hr⟩
    obtain ⟨hfound, rfl⟩ := (hafter _ _).mp hrest
    exact ⟨hfound, (pure_eq_ok.mp hr).symm⟩
  · rintro ⟨hfound, rfl⟩
    exact ⟨_, (hafter _ _).mpr ⟨hfound, rfl⟩, rfl⟩

/-- The pass over the dimensions returns if each has a column and its joins can be found. Then the
plan is extended by the joins of all, in order. -/
theorem planDimensions_eq_ok {c : Catalog} {plan : JoinPlan} {names : List String}
    {r : JoinPlan × List SelectItem} :
    planDimensions c plan names = .ok r ↔
      (∀ n ∈ names, (c.dimensionColumn? n).isSome ∧ c.CanReach (c.dimensionNeed n)) ∧
        r = (plan.extend (names.flatMap fun n => c.reach (c.dimensionNeed n)),
          names.filterMap c.dimensionColumn?) := by
  induction names generalizing plan r with
  | nil => exact ⟨fun h => ⟨by simp, (Except.ok.inj h).symm⟩, fun h => h.2 ▸ rfl⟩
  | cons name rest ih =>
    rw [planDimensions, List.forall_mem_cons, List.flatMap_cons]
    cases hd : c.dimension? name with
    | none =>
      have hcolumn : c.dimensionColumn? name = none := by rw [Catalog.dimensionColumn?, hd]; rfl
      simp [hcolumn, throw_eq_ok]
    | some d =>
      have hcolumn : c.dimensionColumn? name = some (.aliased d.expression d.name) := by
        rw [Catalog.dimensionColumn?, hd]; rfl
      have hneed : c.dimensionNeed name = d.join := by rw [Catalog.dimensionNeed, hd]; rfl
      rw [List.filterMap_cons_some hcolumn, hcolumn, hneed]
      simpa using planItem_eq_ok fun _ _ => ih

/-- The pass over the metrics returns if each has a column and its joins can be found. Then the plan
is extended by the joins of all, in order. -/
theorem planMetrics_eq_ok {c : Catalog} {plan : JoinPlan} {metrics : List MetricSelection}
    {r : JoinPlan × List SelectItem} :
    planMetrics c plan metrics = .ok r ↔
      (∀ m ∈ metrics, (m.column? c).isSome ∧ c.CanReach (m.need c)) ∧
        r = (plan.extend (metrics.flatMap fun m => c.reach (m.need c)),
          metrics.filterMap (MetricSelection.column? c)) := by
  induction metrics generalizing plan r with
  | nil => exact ⟨fun h => ⟨by simp, (Except.ok.inj h).symm⟩, fun h => h.2 ▸ rfl⟩
  | cons metric rest ih =>
    rw [List.forall_mem_cons, List.flatMap_cons]
    cases metric with
    | custom aggregate =>
      have hcolumn : (MetricSelection.custom aggregate).column? c =
          some (.verbatim aggregate.text) := rfl
      have hneed : (MetricSelection.custom aggregate).need c = aggregate.qualifier := rfl
      rw [planMetrics, List.filterMap_cons_some hcolumn, hcolumn, hneed]
      simpa using planItem_eq_ok fun _ _ => ih
    | catalog name =>
      rw [planMetrics]
      cases hm : c.metric? name with
      | none =>
        have hcolumn : (MetricSelection.catalog name).column? c = none := by
          rw [MetricSelection.column?, hm]; rfl
        simp [hcolumn, throw_eq_ok]
      | some m =>
        have hcolumn : (MetricSelection.catalog name).column? c =
            some (.aliased m.expression m.name) := by
          rw [MetricSelection.column?, hm]; rfl
        have hneed : (MetricSelection.catalog name).need c = m.join := by
          rw [MetricSelection.need, hm]; rfl
        rw [List.filterMap_cons_some hcolumn, hcolumn, hneed]
        simpa using planItem_eq_ok fun _ _ => ih

/-! ## Filters -/

/-- The expression that a filter on a field compares, and the chain that it needs, or the fault that
one of them cannot be found. -/
def filterTarget (c : Catalog) (field : String) : Except MissingEntry (String × List Join) :=
  match c.filterField? field with
  | none => .error (.filterField field)
  | some target => (fun chain => (target.expression, chain)) <$> JoinPlan.chainFor c target.join

/-- The first filter is placed on the plan as it stands, and the others on the plan that it leaves.
Whether its target is found does not depend on the plan. -/
theorem planFilters_cons (c : Catalog) (plan : JoinPlan) (f : Filter) (rest : List Filter) :
    planFilters c plan (f :: rest) =
      filterTarget c f.field >>= fun target =>
        (fun r => (r.1, plan.wrap target.2 (conditionPredicate target.1 f.condition) :: r.2)) <$>
          planFilters c (plan.extend (plan.direct target.2)) rest := by
  rw [planFilters, filterTarget]
  cases c.filterField? f.field with
  | none => rfl
  | some target =>
    simp only [JoinPlan.place_eq]
    cases JoinPlan.chainFor c target.join with
    | error fault => rfl
    | ok chain =>
      simp only [bind, Except.bind, Functor.map, Except.map]
      cases planFilters c (plan.extend (plan.direct chain)) rest with
      | error fault => rfl
      | ok r => rfl

/-- A filter's target is found exactly if the field may be filtered on, and then it is the field's
expression and its chain. -/
theorem filterTarget_eq_ok {c : Catalog} {field : String} {target : String × List Join} :
    filterTarget c field = .ok target ↔
      c.CanFilter field ∧ target = (c.filterExpression field, c.filterChain field) := by
  rw [filterTarget, Catalog.CanFilter, Catalog.filterExpression, Catalog.filterChain]
  cases c.filterField? field with
  | none => simp
  | some found =>
    rw [map_eq_ok]
    constructor
    · rintro ⟨chain, hchain, rfl⟩
      obtain ⟨hreach, rfl⟩ := JoinPlan.chainFor_eq_ok.mp hchain
      exact ⟨⟨found, rfl, hreach⟩, rfl⟩
    · rintro ⟨⟨_, ⟨⟩, hreach⟩, rfl⟩
      exact ⟨_, JoinPlan.chainFor_eq_ok.mpr ⟨hreach, rfl⟩, rfl⟩

/-! ## The statement -/

/-- The columns of a query: dimensions, then metrics. -/
def columns (c : Catalog) (q : ResolvedQuery) : List SelectItem :=
  q.dimensions.filterMap c.dimensionColumn? ++ q.metrics.filterMap (MetricSelection.column? c)

/-- The joins on the chains that the selected dimensions and metrics need, in order. -/
def selectedJoins (c : Catalog) (q : ResolvedQuery) : List Join :=
  (q.dimensions.flatMap fun n => c.reach (c.dimensionNeed n)) ++
    q.metrics.flatMap fun m => c.reach (m.need c)

/-- The plan that the filters of a query meet. -/
def selectedPlan (c : Catalog) (q : ResolvedQuery) : JoinPlan :=
  JoinPlan.extend [] (q.selectedJoins c)

/-- The conditions before those of the filters. -/
def fixedPredicates (q : ResolvedQuery) : List Predicate :=
  .raw basePredicate :: (q.dateRange.map rangePredicates).getD []

/-- A query and its statement. -/
structure Compiles (c : Catalog) (q : ResolvedQuery) (s : Statement) : Prop where
  /-- The dimensions have columns, and their joins can be found. -/
  dimensions : ∀ n ∈ q.dimensions, (c.dimensionColumn? n).isSome ∧ c.CanReach (c.dimensionNeed n)
  /-- The metrics have columns, and their joins can be found. -/
  metrics : ∀ m ∈ q.metrics, (m.column? c).isSome ∧ c.CanReach (m.need c)
  /-- The columns are those of the query. -/
  columns : s.columns = q.columns c
  /-- The filters have been placed on the plan of the selected columns. -/
  filters : ∃ placed, planFilters c (q.selectedPlan c) q.filters = .ok (s.joins, placed) ∧
    s.predicates = q.fixedPredicates ++ placed
  /-- Rows are grouped by the dimensions. -/
  grouped : s.grouped = q.dimensions.length
  /-- The order is that of the query. -/
  orderBy : s.orderBy = q.orderBy
  /-- The limit is that of the query. -/
  limit : s.limit = q.limit
  /-- The offset is that of the query. -/
  offset : s.offset = q.offset

/-- The outcome of the three passes. -/
theorem statement_eq_ok {c : Catalog} {q : ResolvedQuery} {s : Statement} :
    q.statement c = .ok s ↔ q.Compiles c s := by
  constructor
  · intro h
    unfold statement at h
    obtain ⟨r, hr, h⟩ := bind_eq_ok.mp h
    obtain ⟨hdimensions, rfl⟩ := planDimensions_eq_ok.mp hr
    obtain ⟨r, hr, h⟩ := bind_eq_ok.mp h
    obtain ⟨hmetrics, rfl⟩ := planMetrics_eq_ok.mp hr
    obtain ⟨⟨plan, placed⟩, hplaced, h⟩ := bind_eq_ok.mp h
    obtain rfl := pure_eq_ok.mp h
    -- The two passes over the columns have extended the empty plan one after the other.
    rw [← JoinPlan.extend_append] at hplaced
    exact ⟨hdimensions, hmetrics, rfl, ⟨placed, hplaced, rfl⟩, rfl, rfl, rfl, rfl⟩
  · intro h
    obtain ⟨columns, joins, predicates, grouped, orderBy, limit, offset⟩ := s
    obtain ⟨hdimensions, hmetrics, rfl, ⟨placed, hplaced, rfl⟩, rfl, rfl, rfl, rfl⟩ := h
    rw [selectedPlan, selectedJoins, JoinPlan.extend_append] at hplaced
    unfold statement
    exact bind_eq_ok.mpr ⟨_, planDimensions_eq_ok.mpr ⟨hdimensions, rfl⟩, bind_eq_ok.mpr
      ⟨_, planMetrics_eq_ok.mpr ⟨hmetrics, rfl⟩, bind_eq_ok.mpr ⟨_, hplaced, rfl⟩⟩⟩

/-- A query that compiles has a statement, whose text and parameters are the answer. -/
theorem compile_eq_ok {c : Catalog} {q : ResolvedQuery} {out : CompiledQuery} :
    q.compile c = .ok out ↔ ∃ s, q.Compiles c s ∧ s.compiled = out := by
  rw [compile, map_eq_ok]
  simp only [statement_eq_ok]

end ResolvedQuery

end SalesQuery
