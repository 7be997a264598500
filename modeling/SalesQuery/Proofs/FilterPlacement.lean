import SalesQuery.Catalog.Restaurant
import SalesQuery.Proofs.PlanSteps

/-!
# Where filters are placed

A filter must not change which rows a metric is summed over. The pass over the filters threads one
join plan through them, so a filter might change what the next one finds joined; but no filter joins
a join of many rows, and its placement asks for such joins only. So every filter is placed as if it
were alone with the selected columns (`Filter.predicate`, `planFilters_eq_ok`): its condition
becomes a semi-join exactly if its chain has a join of many rows that the columns do not need, and
the order of the filters does not matter.
-/

namespace SalesQuery

namespace JoinPlan

variable {c : Catalog} {plan base : JoinPlan} {l chain : List Join} {j : Join}

/-! ## The joins of a plan -/

/-- A plan joins an alias if one of its joins has it. -/
theorem joins_eq_true {aliasName : String} :
    plan.joins aliasName = true ↔ ∃ k ∈ plan, k.aliasName = aliasName := by
  rw [joins, List.any_eq_true]
  simp only [decide_eq_true_eq]

/-- An extended plan joins the aliases of the plan and of what it is extended by. -/
theorem joins_extend {aliasName : String} :
    (plan.extend l).joins aliasName = true ↔
      plan.joins aliasName = true ∨ ∃ k ∈ l, k.aliasName = aliasName := by
  induction l generalizing plan with
  | nil => simp [extend]
  | cons first rest ih =>
    have hstep : (plan.extend [first]).joins aliasName = true ↔
        plan.joins aliasName = true ∨ first.aliasName = aliasName := by
      rw [extend, List.foldl_cons, List.foldl_nil]
      split
      · rename_i hjoined
        refine ⟨.inl, fun h => h.elim id ?_⟩
        rintro rfl
        exact hjoined
      · rw [joins, List.any_append, Bool.or_eq_true]
        simp [joins]
    rw [← List.singleton_append, extend_append, ih, hstep, or_assoc]
    simp

/-- In a plan of known joins, the alias of a known join is joined by the join itself. -/
theorem joins_iff_mem (hplan : ∀ k ∈ plan, c.Has k) (hj : c.Has j) :
    plan.joins j.aliasName = true ↔ j ∈ plan := by
  rw [joins_eq_true]
  constructor
  · rintro ⟨k, hk, halias⟩
    rwa [← (hplan k hk).eq hj halias]
  · exact fun h => ⟨j, h, rfl⟩

/-- Extending by known joins gives a plan of known joins. -/
theorem has_of_mem_extend (hplan : ∀ k ∈ plan, c.Has k) (hl : ∀ k ∈ l, c.Has k) :
    ∀ k ∈ plan.extend l, c.Has k := by
  intro k hk
  rcases mem_of_mem_extend hk with hk | hk
  · exact hplan k hk
  · exact hl k hk

/-- The joins of a plan of known joins that is extended by known joins. -/
theorem mem_extend (hplan : ∀ k ∈ plan, c.Has k) (hl : ∀ k ∈ l, c.Has k) :
    j ∈ plan.extend l ↔ j ∈ plan ∨ j ∈ l := by
  constructor
  · exact mem_of_mem_extend
  · intro h
    have hj : c.Has j := h.elim (hplan j) (hl j)
    rw [← joins_iff_mem (has_of_mem_extend hplan hl) hj, joins_extend, joins_iff_mem hplan hj]
    exact h.imp id fun h => ⟨j, h, rfl⟩

/-! ## Joins of many rows -/

/-- Two plans join the same joins of many rows. -/
def SameFanOuts (c : Catalog) (plan base : JoinPlan) : Prop :=
  ∀ j, c.Has j → j.fanOut.isSome → plan.joins j.aliasName = base.joins j.aliasName

/-- Where a chain is split depends on the joins of many rows only. -/
theorem SameFanOuts.splitFanOut_eq (h : SameFanOuts c plan base) (hchain : ∀ k ∈ chain, c.Has k) :
    plan.splitFanOut chain = base.splitFanOut chain := by
  induction chain with
  | nil => rfl
  | cons first rest ih =>
    obtain ⟨hfirst, hrest⟩ := List.forall_mem_cons.mp hchain
    rw [splitFanOut, splitFanOut, ih hrest]
    split
    · rename_i key hkey
      rw [h first hfirst (by rw [hkey]; rfl)]
    · rfl

/-- The joins of many rows that a filter joins are joined already. -/
theorem joins_of_mem_direct (hj : j ∈ plan.direct chain) (hfan : j.fanOut.isSome) :
    plan.joins j.aliasName = true := by
  rw [direct] at hj
  split at hj
  · rename_i hsplit
    exact splitFanOut_eq_none.mp hsplit j hj hfan
  · rename_i before split hsplit
    obtain ⟨key, root, rest⟩ := split
    exact (splitFanOut_eq_some hsplit).2.2.2 j hj hfan

/-- A filter leaves the joins of many rows as they are. -/
theorem SameFanOuts.extend_direct (h : SameFanOuts c plan base) (hchain : ∀ k ∈ chain, c.Has k) :
    SameFanOuts c (plan.extend (plan.direct chain)) base := by
  intro j hj hfan
  rw [← h j hj hfan, Bool.eq_iff_iff, joins_extend]
  refine ⟨fun hjoined => hjoined.elim id ?_, .inl⟩
  -- A new join with this alias would be the join itself, and that one was joined before.
  rintro ⟨k, hk, halias⟩
  obtain rfl := (hchain k (mem_of_mem_direct hk)).eq hj halias
  exact joins_of_mem_direct hk hfan

/-- A filter joins the same part of its chain. -/
theorem SameFanOuts.direct_eq (h : SameFanOuts c plan base) (hchain : ∀ k ∈ chain, c.Has k) :
    plan.direct chain = base.direct chain := by
  rw [direct, direct, h.splitFanOut_eq hchain]

/-- A condition is placed in the same way. -/
theorem SameFanOuts.wrap_eq (h : SameFanOuts c plan base) (hchain : ∀ k ∈ chain, c.Has k)
    (predicate : Predicate) : plan.wrap chain predicate = base.wrap chain predicate := by
  rw [wrap, wrap, h.splitFanOut_eq hchain]

end JoinPlan

/-- A condition is a semi-join. -/
def Predicate.IsSemiJoin : Predicate → Prop
  | .semiJoin _ _ _ _ => True
  | _ => False

/-- The condition of a filter is no semi-join before it is placed. -/
theorem ResolvedQuery.not_isSemiJoin_conditionPredicate (expression : String)
    (condition : FilterCondition) : ¬ (conditionPredicate expression condition).IsSemiJoin := by
  cases condition <;> exact id

/-- A condition is placed in a semi-join exactly if its chain has a join of many rows that the plan
does not have. -/
theorem JoinPlan.isSemiJoin_wrap {plan : JoinPlan} {chain : List Join} {predicate : Predicate}
    (hp : ¬ predicate.IsSemiJoin) :
    (plan.wrap chain predicate).IsSemiJoin ↔
      ∃ j ∈ chain, j.fanOut.isSome ∧ plan.joins j.aliasName = false := by
  rw [wrap]
  split
  · rename_i hsplit
    refine ⟨fun h => absurd h hp, ?_⟩
    rintro ⟨j, hj, hfan, hnew⟩
    rw [splitFanOut_eq_none.mp hsplit j hj hfan] at hnew
    contradiction
  · rename_i before key root rest hsplit
    obtain ⟨hchain, hkey, hnew, _⟩ := splitFanOut_eq_some hsplit
    exact ⟨fun _ => ⟨root, by simp [hchain], by rw [hkey]; rfl, hnew⟩, fun _ => trivial⟩

/-! ## The pass over the filters -/

/-- The condition of a filter, placed over a plan. -/
def Filter.predicate (c : Catalog) (plan : JoinPlan) (f : Filter) : Predicate :=
  plan.wrap (c.filterChain f.field)
    (ResolvedQuery.conditionPredicate (c.filterExpression f.field) f.condition)

namespace ResolvedQuery

variable {c : Catalog} {q : ResolvedQuery} {s : Statement}

/-- The pass over the filters returns if each field may be filtered on. Whatever plan it starts
with, each filter is placed as over any other plan with the same joins of many rows. -/
theorem planFilters_eq_ok {plan base : JoinPlan} (h : JoinPlan.SameFanOuts c plan base)
    {filters : List Filter} {r : JoinPlan × List Predicate} :
    planFilters c plan filters = .ok r ↔
      (∀ f ∈ filters, c.CanFilter f.field) ∧
        r = (plan.extend (filters.flatMap fun f => base.direct (c.filterChain f.field)),
          filters.map (Filter.predicate c base)) := by
  -- The plan grows from filter to filter; that it agrees with `base` on joins of many rows is what
  -- carries the induction.
  induction filters generalizing plan r with
  | nil => exact ⟨fun hr => ⟨by simp, (Except.ok.inj hr).symm⟩, fun hr => hr.2 ▸ rfl⟩
  | cons f rest ih =>
    have hchain : ∀ k ∈ c.filterChain f.field, c.Has k := fun k => Catalog.has_of_mem_reach
    have hsame := h.extend_direct hchain
    rw [planFilters_cons, bind_eq_ok, List.forall_mem_cons, List.flatMap_cons,
      JoinPlan.extend_append, ← h.direct_eq hchain]
    constructor
    · rintro ⟨target, htarget, hr⟩
      obtain ⟨hcan, rfl⟩ := filterTarget_eq_ok.mp htarget
      obtain ⟨r', hr', rfl⟩ := map_eq_ok.mp hr
      obtain ⟨hcans, rfl⟩ := (ih hsame).mp hr'
      refine ⟨⟨hcan, hcans⟩, ?_⟩
      rw [List.map_cons, Filter.predicate, ← h.wrap_eq hchain]
    · rintro ⟨⟨hcan, hcans⟩, rfl⟩
      refine ⟨_, filterTarget_eq_ok.mpr ⟨hcan, rfl⟩, ?_⟩
      refine map_eq_ok.mpr ⟨_, (ih hsame).mpr ⟨hcans, rfl⟩, ?_⟩
      rw [List.map_cons, Filter.predicate, ← h.wrap_eq hchain]

/-- The selected joins are known. -/
theorem has_of_mem_selectedJoins {j : Join} (hj : j ∈ q.selectedJoins c) : c.Has j := by
  rcases List.mem_append.mp hj with hj | hj
  · obtain ⟨name, _, hj⟩ := List.mem_flatMap.mp hj
    exact Catalog.has_of_mem_reach hj
  · obtain ⟨m, _, hj⟩ := List.mem_flatMap.mp hj
    exact Catalog.has_of_mem_reach hj

/-- The plan that the filters meet has known joins. -/
theorem has_of_mem_selectedPlan {j : Join} (hj : j ∈ q.selectedPlan c) : c.Has j :=
  JoinPlan.has_of_mem_extend (by simp) (fun _ => has_of_mem_selectedJoins) j hj

/-- The plan that the filters meet has the selected joins. -/
theorem mem_selectedPlan {j : Join} : j ∈ q.selectedPlan c ↔ j ∈ q.selectedJoins c := by
  rw [selectedPlan, JoinPlan.mem_extend (by simp) fun _ => has_of_mem_selectedJoins]
  simp

/-- The joins that the filters of a query join. -/
def filterJoins (c : Catalog) (q : ResolvedQuery) : List Join :=
  q.filters.flatMap fun f => (q.selectedPlan c).direct (c.filterChain f.field)

/-- The joins that the filters join are known. -/
theorem has_of_mem_filterJoins {j : Join} (hj : j ∈ q.filterJoins c) : c.Has j := by
  obtain ⟨f, _, hj⟩ := List.mem_flatMap.mp hj
  exact Catalog.has_of_mem_reach (JoinPlan.mem_of_mem_direct hj)

/-- A query has a statement with these conditions and joins: the filters may be filtered on, and
each is placed over the plan of the selected columns. -/
theorem filters_iff {joins : JoinPlan} {predicates : List Predicate} :
    (∃ placed, planFilters c (q.selectedPlan c) q.filters = .ok (joins, placed) ∧
        predicates = q.fixedPredicates ++ placed) ↔
      (∀ f ∈ q.filters, c.CanFilter f.field) ∧
        joins = (q.selectedPlan c).extend (q.filterJoins c) ∧
        predicates =
          q.fixedPredicates ++ q.filters.map (Filter.predicate c (q.selectedPlan c)) := by
  have hsame : JoinPlan.SameFanOuts c (q.selectedPlan c) (q.selectedPlan c) := fun _ _ _ => rfl
  simp only [planFilters_eq_ok hsame, Prod.mk.injEq]
  constructor
  · rintro ⟨_, ⟨hcan, hjoins, rfl⟩, hpredicates⟩
    exact ⟨hcan, hjoins, hpredicates⟩
  · rintro ⟨hcan, hjoins, hpredicates⟩
    exact ⟨_, ⟨hcan, hjoins, rfl⟩, hpredicates⟩

/-- The joins of a statement are the selected ones and those that the filters join. -/
theorem Compiles.mem_joins_iff (h : q.Compiles c s) {j : Join} :
    j ∈ s.joins ↔ j ∈ q.selectedJoins c ∨ j ∈ q.filterJoins c := by
  rw [(filters_iff.mp h.filters).2.1, JoinPlan.mem_extend (fun _ => has_of_mem_selectedPlan)
    fun _ => has_of_mem_filterJoins, mem_selectedPlan]

/-- A filter joins no join of many rows that is not selected. -/
theorem mem_selectedJoins_of_mem_filterJoins {j : Join} (hj : j ∈ q.filterJoins c)
    (hfan : j.fanOut.isSome) : j ∈ q.selectedJoins c := by
  have hknown : c.Has j := has_of_mem_filterJoins hj
  obtain ⟨f, _, hj⟩ := List.mem_flatMap.mp hj
  have hjoined := JoinPlan.joins_of_mem_direct hj hfan
  rwa [JoinPlan.joins_iff_mem (fun _ => has_of_mem_selectedPlan) hknown,
    mem_selectedPlan] at hjoined

/-- A filter is placed in a semi-join exactly if its chain has a join of many rows that is not
selected. -/
theorem isSemiJoin_predicate (f : Filter) :
    (f.predicate c (q.selectedPlan c)).IsSemiJoin ↔
      ∃ j ∈ c.filterChain f.field, j.fanOut.isSome ∧ j ∉ q.selectedJoins c := by
  rw [Filter.predicate, JoinPlan.isSemiJoin_wrap (not_isSemiJoin_conditionPredicate _ _)]
  refine exists_congr fun j => and_congr_right fun hj => and_congr_right fun _ => ?_
  rw [← Bool.not_eq_true, JoinPlan.joins_iff_mem (fun _ => has_of_mem_selectedPlan)
    (Catalog.has_of_mem_reach hj), mem_selectedPlan]

/-- A query whose filters stand in another order has a statement with the same joins, and each
filter is placed as before. -/
theorem Compiles.exists_of_perm (h : q.Compiles c s) {filters : List Filter}
    (hperm : filters.Perm q.filters) :
    ∃ s', ResolvedQuery.Compiles c { q with filters } s' ∧ (∀ j, j ∈ s'.joins ↔ j ∈ s.joins) ∧
      s'.predicates =
        q.fixedPredicates ++ filters.map (Filter.predicate c (q.selectedPlan c)) := by
  let q' : ResolvedQuery := { q with filters }
  let s' : Statement := {
    s with
    joins := (q'.selectedPlan c).extend (q'.filterJoins c)
    predicates := q'.fixedPredicates ++ filters.map (Filter.predicate c (q'.selectedPlan c)) }
  -- The plan that the filters meet is made of the columns, which are the same.
  have hcan : ∀ f ∈ filters, c.CanFilter f.field := fun f hf =>
    (filters_iff.mp h.filters).1 f (hperm.mem_iff.mp hf)
  have hcompiles : q'.Compiles c s' := {
    h with filters := filters_iff.mpr ⟨hcan, rfl, rfl⟩ }
  refine ⟨s', hcompiles, fun j => ?_, rfl⟩
  rw [hcompiles.mem_joins_iff, h.mem_joins_iff]
  exact or_congr_right (hperm.flatMap_right _).mem_iff

/-- The joins of many rows in a statement are those that its dimensions and metrics need. Each
filter is placed on its own, over the plan of these columns: in a semi-join exactly if its chain has
a join of many rows beyond them. In any other order of the filters the statement has the same joins,
and the conditions go along with their filters. -/
theorem filters_placed_alone (h : q.statement c = .ok s) :
    (∀ j, j.fanOut.isSome → (j ∈ s.joins ↔ j ∈ q.selectedJoins c)) ∧
      s.predicates =
        q.fixedPredicates ++ q.filters.map (Filter.predicate c (q.selectedPlan c)) ∧
      (∀ f ∈ q.filters, c.CanFilter f.field ∧
        ((f.predicate c (q.selectedPlan c)).IsSemiJoin ↔
          ∃ j ∈ c.filterChain f.field, j.fanOut.isSome ∧ j ∉ q.selectedJoins c)) ∧
      ∀ filters : List Filter, filters.Perm q.filters →
        ∃ s', ResolvedQuery.statement c { q with filters } = .ok s' ∧
          (∀ j, j ∈ s'.joins ↔ j ∈ s.joins) ∧
          s'.predicates =
            q.fixedPredicates ++ filters.map (Filter.predicate c (q.selectedPlan c)) := by
  have hs := statement_eq_ok.mp h
  obtain ⟨hcan, _, hpredicates⟩ := filters_iff.mp hs.filters
  refine ⟨fun j hfan => ?_, hpredicates, fun f hf => ⟨hcan f hf, isSemiJoin_predicate f⟩,
    fun filters hperm => ?_⟩
  · rw [hs.mem_joins_iff]
    exact or_iff_left_of_imp fun hj => mem_selectedJoins_of_mem_filterJoins hj hfan
  · obtain ⟨s', hs', hjoins, hpredicates'⟩ := hs.exists_of_perm hperm
    exact ⟨s', statement_eq_ok.mpr hs', hjoins, hpredicates'⟩

/-- The revenue of the sales over a channel that have a line with a product. -/
def productRevenue : ResolvedQuery where
  dimensions := []
  metrics := [.catalog "faturamento"]
  filters := [⟨"produto", .equals (.text "Pizza")⟩, ⟨"channel", .equals (.text "iFood")⟩]
  dateRange := none
  orderBy := []
  limit := none
  offset := none

/-- The lines of sales are not joined for the revenue of a product: its filter stands in a
semi-join, the one on the channel does not, and it is the same with the filters turned round. -/
theorem filters_placed_alone_productRevenue :
    ∃ s, productRevenue.statement Catalog.restaurant = .ok s ∧ (∀ j ∈ s.joins, j.fanOut = none) ∧
      (∀ f ∈ productRevenue.filters,
        (f.predicate Catalog.restaurant
          (productRevenue.selectedPlan Catalog.restaurant)).IsSemiJoin ↔ f.field = "produto") ∧
      ∃ s', statement Catalog.restaurant
          { productRevenue with filters := productRevenue.filters.reverse } = .ok s' ∧
        ∀ j, j ∈ s'.joins ↔ j ∈ s.joins := by
  have hok : (productRevenue.statement Catalog.restaurant).isOk := by decide +kernel
  cases hs : productRevenue.statement Catalog.restaurant with
  | error fault =>
    rw [hs] at hok
    contradiction
  | ok s =>
    obtain ⟨hjoins, _, hplaced, horder⟩ := filters_placed_alone hs
    have hselected : productRevenue.selectedJoins Catalog.restaurant = [] := by decide +kernel
    rw [hselected] at hjoins hplaced
    refine ⟨s, rfl, fun j hj => ?_, fun f hf => ?_, ?_⟩
    · cases hfan : j.fanOut with
      | none => rfl
      | some key => exact absurd ((hjoins j (by rw [hfan]; rfl)).mp hj) List.not_mem_nil
    · rw [(hplaced f hf).2]
      revert f
      decide +kernel
    · obtain ⟨s', hs', hsame, _⟩ := horder _ (List.reverse_perm _)
      exact ⟨s', hs', hsame⟩

end ResolvedQuery

end SalesQuery
