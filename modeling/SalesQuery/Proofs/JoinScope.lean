import Mathlib.Data.List.Nodup
import SalesQuery.Proofs.CatalogConsistency
import SalesQuery.Proofs.FilterPlacement

/-!
# Which aliases a statement has in scope

Every table of a statement and of its subqueries refers to other tables by their aliases, so an
alias may neither be missing, nor come too late, nor mean two tables. The plan of joins keeps two
invariants as it grows: no alias twice, and dependencies first (`DependenciesFirst`). A semi-join
takes the end of a chain that starts at a join which the statement does not have; since the
statement's joins are closed under dependencies, it has none of the others either, whatever filters
come later. `joins_scoped` puts this together.
-/

namespace SalesQuery

/-! ## Dependencies -/

/-- Every join depends on one before it, or on one of the aliases joined before the list. -/
def DependenciesFirst (joined : List String) : List Join → Prop
  | [] => True
  | j :: rest =>
    (∀ parent ∈ j.dependsOn, parent ∈ joined) ∧ DependenciesFirst (j.aliasName :: joined) rest

namespace DependenciesFirst

variable {joined others : List String} {l m : List Join}

/-- More aliases may be joined before. -/
theorem mono (h : DependenciesFirst joined l) (hsub : joined ⊆ others) :
    DependenciesFirst others l := by
  induction l generalizing joined others with
  | nil => trivial
  | cons j rest ih =>
    exact ⟨fun parent hparent => hsub (h.1 parent hparent),
      ih h.2 (List.cons_subset_cons _ hsub)⟩

/-- Dependencies come first in one list after another. -/
theorem append (hl : DependenciesFirst joined l) (hm : DependenciesFirst joined m) :
    DependenciesFirst joined (l ++ m) := by
  induction l generalizing joined with
  | nil => exact hm
  | cons j rest ih => exact ⟨hl.1, ih hl.2 (hm.mono (List.subset_cons_self _ _))⟩

/-- Dependencies come first in a beginning of the list. -/
theorem of_append (h : DependenciesFirst joined (l ++ m)) : DependenciesFirst joined l := by
  induction l generalizing joined with
  | nil => trivial
  | cons j rest ih => exact ⟨h.1, ih h.2⟩

/-- Dependencies come first in lists one after the other. -/
theorem flatMap {α : Type} {f : α → List Join} {as : List α}
    (h : ∀ a ∈ as, DependenciesFirst joined (f a)) : DependenciesFirst joined (as.flatMap f) := by
  induction as with
  | nil => trivial
  | cons a rest ih =>
    obtain ⟨ha, hrest⟩ := List.forall_mem_cons.mp h
    exact append ha (ih hrest)

/-- A join whose alias is joined before it may be left out. -/
theorem erase {j : Join} (h : DependenciesFirst joined (l ++ j :: m))
    (hj : j.aliasName ∈ joined ∨ ∃ k ∈ l, k.aliasName = j.aliasName) :
    DependenciesFirst joined (l ++ m) := by
  induction l generalizing joined with
  | nil =>
    have hjoined : j.aliasName ∈ joined := by simpa using hj
    exact h.2.mono (List.cons_subset.mpr ⟨hjoined, fun _ => id⟩)
  | cons k rest ih =>
    refine ⟨h.1, ih h.2 ?_⟩
    rcases hj with hj | ⟨k', hk', halias⟩
    · exact .inl (List.mem_cons_of_mem _ hj)
    · rcases List.mem_cons.mp hk' with rfl | hk'
      · exact .inl (halias ▸ List.mem_cons_self)
      · exact .inr ⟨k', hk', halias⟩

/-- A list with its dependencies first is closed under them. -/
theorem closed (h : DependenciesFirst joined l) {j : Join} (hj : j ∈ l) {parent : String}
    (hparent : parent ∈ j.dependsOn) :
    parent ∈ joined ∨ ∃ k ∈ l, k.aliasName = parent := by
  induction l generalizing joined with
  | nil => contradiction
  | cons first rest ih =>
    rcases List.mem_cons.mp hj with rfl | hj
    · exact .inl (h.1 parent hparent)
    · rcases ih h.2 hj with hjoined | ⟨k, hk, halias⟩
      · rcases List.mem_cons.mp hjoined with rfl | hjoined
        · exact .inr ⟨first, List.mem_cons_self, rfl⟩
        · exact .inl hjoined
      · exact .inr ⟨k, List.mem_cons_of_mem _ hk, halias⟩

/-- Joins that each depend on the one before them have their dependencies first, once that of the
first is joined. -/
theorem of_isChain (h : l.IsChain fun j k => k.dependsOn = some j.aliasName)
    (hfirst : ∀ j ∈ l.head?, ∀ parent ∈ j.dependsOn, parent ∈ joined) :
    DependenciesFirst joined l := by
  induction l generalizing joined with
  | nil => trivial
  | cons j rest ih =>
    refine ⟨hfirst j rfl, ih h.tail fun k hk parent hparent => ?_⟩
    have hlink : k.dependsOn = some j.aliasName := (List.isChain_cons.mp h).1 k hk
    rw [hlink] at hparent
    obtain rfl := Option.some.inj hparent
    exact List.mem_cons_self

end DependenciesFirst

/-- A chain that leads to an alias has its dependencies first. -/
theorem Catalog.LeadsTo.dependenciesFirst {chain : List Join} {aliasName : String}
    (h : LeadsTo chain aliasName) : DependenciesFirst [] chain :=
  .of_isChain h.linked fun j hj parent hparent => by
    rw [h.first j hj] at hparent
    contradiction

/-- The joins that an expression needs have their dependencies first. -/
theorem Catalog.dependenciesFirst_reach {c : Catalog} {needed : Option String} :
    DependenciesFirst [] (c.reach needed) := by
  cases needed with
  | none => trivial
  | some aliasName =>
    rw [reach]
    cases hchain : c.joinChain? aliasName with
    | none => trivial
    | some chain =>
      by_cases hbase : aliasName = baseAlias
      · rw [joinChain?, if_pos hbase] at hchain
        obtain rfl := Option.some.inj hchain
        trivial
      · exact (leadsTo_of_joinChain? hchain hbase).dependenciesFirst

namespace JoinPlan

variable {c : Catalog} {plan : JoinPlan} {l chain : List Join}

/-- Extending a plan keeps dependencies first. -/
theorem dependenciesFirst_extend (h : DependenciesFirst [] (plan ++ l)) :
    DependenciesFirst [] (plan.extend l) := by
  induction l generalizing plan with
  | nil => simpa [extend] using h
  | cons j rest ih =>
    rw [extend, List.foldl_cons]
    split
    · rename_i hjoined
      exact ih (h.erase (.inr (joins_eq_true.mp hjoined)))
    · rw [List.append_cons] at h
      exact ih h

/-- Extending a plan keeps its aliases apart. -/
theorem aliases_nodup_extend (h : (plan.map (·.aliasName)).Nodup) :
    ((plan.extend l).map (·.aliasName)).Nodup := by
  induction l generalizing plan with
  | nil => exact h
  | cons j rest ih =>
    rw [extend, List.foldl_cons]
    split
    · exact ih h
    · rename_i hnew
      refine ih ?_
      rw [List.map_append, List.map_singleton, List.nodup_append_comm]
      refine List.nodup_cons.mpr ⟨fun hmem => hnew ?_, h⟩
      obtain ⟨k, hk, halias⟩ := List.mem_map.mp hmem
      exact joins_eq_true.mpr ⟨k, hk, halias⟩

/-- The part of a chain that a filter joins has its dependencies first. -/
theorem dependenciesFirst_direct (h : DependenciesFirst [] chain) :
    DependenciesFirst [] (plan.direct chain) := by
  rw [direct]
  split
  · exact h
  · rename_i before split hsplit
    obtain ⟨key, root, rest⟩ := split
    rw [(splitFanOut_eq_some hsplit).1] at h
    exact h.of_append

/-- If a plan with its dependencies first does not join the first of some joins that each depend on
the one before them, it joins none of them. -/
theorem not_joins_of_isChain (hplan : DependenciesFirst [] plan) (hhas : ∀ k ∈ plan, c.Has k)
    {root : Join} {rest : List Join}
    (hlinked : (root :: rest).IsChain fun j k => k.dependsOn = some j.aliasName)
    (hknown : ∀ k ∈ root :: rest, c.Has k) (hroot : plan.joins root.aliasName = false) :
    ∀ j ∈ root :: rest, plan.joins j.aliasName = false := by
  induction rest generalizing root with
  | nil => simpa using hroot
  | cons next rest ih =>
    obtain ⟨hlink, htail⟩ := List.isChain_cons_cons.mp hlinked
    obtain ⟨-, hrest⟩ := List.forall_mem_cons.mp hknown
    refine List.forall_mem_cons.mpr ⟨hroot, ih htail hrest ?_⟩
    -- Were the next one joined, so would be the one that it depends on.
    by_contra hjoined
    rw [Bool.not_eq_false, joins_iff_mem hhas (hrest next List.mem_cons_self)] at hjoined
    rcases hplan.closed hjoined hlink with hempty | hparent
    · contradiction
    · rw [joins_eq_true.mpr hparent] at hroot
      contradiction

end JoinPlan

/-! ## The scope of a statement -/

/-- The alias that a filter on the field needs joined. -/
def Catalog.filterNeed (c : Catalog) (field : String) : Option String :=
  (c.filterField? field).bind FilterField.join

/-- The condition of a filter before it is placed. -/
def Filter.plain (c : Catalog) (f : Filter) : Predicate :=
  ResolvedQuery.conditionPredicate (c.filterExpression f.field) f.condition

/-- The subquery of a semi-join sees what it needs and hides nothing, in a statement with these
joins. -/
structure SubqueryScoped (c : Catalog) (joins : List Join) (field : String) (key : FanOut)
    (root : Join) (rest : List Join) : Prop where
  /-- The subquery has the chain of the field from its first join of many rows on that is not
  joined. -/
  chain : ∃ before, c.filterChain field = before ++ root :: rest ∧
    ∀ j ∈ before, j.fanOut.isSome → j ∈ joins
  /-- The key of that join ties the subquery to the sale. -/
  key_eq : root.fanOut = some key
  /-- The subquery ends with the alias that the field needs. -/
  last : (root :: rest).getLast?.map (·.aliasName) = c.filterNeed field
  /-- Each join of the subquery depends on one before it. -/
  ordered : DependenciesFirst [root.aliasName] rest
  /-- What the subquery's first table depends on is joined outside. -/
  outer : ∀ parent ∈ root.dependsOn, ∃ k ∈ joins, k.aliasName = parent
  /-- No alias of the subquery has a meaning outside. -/
  fresh : ∀ j ∈ root :: rest,
    j.aliasName ≠ baseAlias ∧ ∀ k ∈ joins, k.aliasName ≠ j.aliasName

/-- What a filter has become sees what it needs, in a statement with these joins. -/
inductive Filter.Scoped (c : Catalog) (joins : List Join) (f : Filter) : Predicate → Prop where
  /-- The condition stands as it is, and the alias that its field needs is joined. -/
  | plain (h : ∀ needed ∈ c.filterNeed f.field, ∃ k ∈ joins, k.aliasName = needed) :
    Scoped c joins f (f.plain c)
  /-- The condition stands in a semi-join over the end of the filter's chain. -/
  | semiJoin {key : FanOut} {root : Join} {rest : List Join}
    (h : SubqueryScoped c joins f.field key root rest) :
    Scoped c joins f (.semiJoin key root rest (f.plain c))

/-- The joins of a statement bring into scope what its query needs, once and in order. -/
structure ResolvedQuery.Scoped (c : Catalog) (q : ResolvedQuery) (s : Statement) : Prop where
  /-- No two tables share an alias. -/
  aliases_nodup : (baseAlias :: s.joins.map (·.aliasName)).Nodup
  /-- Every join depends on one before it. -/
  ordered : DependenciesFirst [] s.joins
  /-- The aliases that dimensions need are joined. -/
  dimensions : ∀ name ∈ q.dimensions, ∀ needed ∈ c.dimensionNeed name,
    ∃ k ∈ s.joins, k.aliasName = needed
  /-- The aliases that metrics need are joined; only a custom aggregate may need that of the base
  table instead. -/
  metrics : ∀ m ∈ q.metrics, ∀ needed ∈ m.need c,
    (∃ aggregate, m = .custom aggregate ∧ needed = baseAlias) ∨
      ∃ k ∈ s.joins, k.aliasName = needed
  /-- The filters come after the fixed conditions, and each sees what it needs. -/
  filters : ∃ placed, s.predicates = q.fixedPredicates ++ placed ∧
    List.Forall₂ (Filter.Scoped c s.joins) q.filters placed
  /-- Nothing is joined but what columns need, and of the chain of a filter what comes before a
  join that starts a semi-join. -/
  needed : ∀ j ∈ s.joins, j ∈ q.selectedJoins c ∨
    ∃ f ∈ q.filters, j ∈ JoinPlan.direct s.joins (c.filterChain f.field)

namespace ResolvedQuery

variable {c : Catalog} {q : ResolvedQuery} {s : Statement}

/-- A statement has the selected joins and those of the filters, each alias once. -/
theorem Compiles.joins_eq (h : q.Compiles c s) :
    s.joins = JoinPlan.extend [] (q.selectedJoins c ++ q.filterJoins c) := by
  rw [(filters_iff.mp h.filters).2.1, selectedPlan, JoinPlan.extend_append]

/-- The joins of a statement are known to the catalog. -/
theorem Compiles.has_of_mem_joins (h : q.Compiles c s) {j : Join} (hj : j ∈ s.joins) : c.Has j :=
  (h.mem_joins_iff.mp hj).elim has_of_mem_selectedJoins has_of_mem_filterJoins

/-- The joins of a statement have their dependencies first. -/
theorem Compiles.dependenciesFirst (h : q.Compiles c s) : DependenciesFirst [] s.joins := by
  have hselected : DependenciesFirst [] (q.selectedJoins c) :=
    (DependenciesFirst.flatMap fun _ _ => Catalog.dependenciesFirst_reach).append
      (.flatMap fun _ _ => Catalog.dependenciesFirst_reach)
  have hfilters : DependenciesFirst [] (q.filterJoins c) :=
    .flatMap fun _ _ => JoinPlan.dependenciesFirst_direct Catalog.dependenciesFirst_reach
  rw [h.joins_eq]
  exact JoinPlan.dependenciesFirst_extend (hselected.append hfilters)

/-- A statement has the joins of many rows that the filters have met. -/
theorem Compiles.sameFanOuts (h : q.Compiles c s) :
    JoinPlan.SameFanOuts c s.joins (q.selectedPlan c) := by
  intro j hj hfan
  rw [Bool.eq_iff_iff, JoinPlan.joins_iff_mem (fun _ => h.has_of_mem_joins) hj,
    JoinPlan.joins_iff_mem (fun _ => has_of_mem_selectedPlan) hj, mem_selectedPlan,
    h.mem_joins_iff]
  exact or_iff_left_of_imp fun hmem => mem_selectedJoins_of_mem_filterJoins hmem hfan

/-- A filter joins as much of its chain as it would over the finished statement. -/
theorem Compiles.direct_eq (h : q.Compiles c s) (field : String) :
    JoinPlan.direct s.joins (c.filterChain field) =
      JoinPlan.direct (q.selectedPlan c) (c.filterChain field) :=
  h.sameFanOuts.direct_eq fun _ => Catalog.has_of_mem_reach

/-- An alias is joined if the joins that reach it are, unless it is that of the base table. -/
theorem exists_joined {joins : List Join} {needed : Option String} (hreach : c.CanReach needed)
    (hsub : ∀ j ∈ c.reach needed, j ∈ joins) {a : String} (ha : a ∈ needed)
    (hbase : a ≠ baseAlias) :
    ∃ k ∈ joins, k.aliasName = a := by
  obtain rfl : needed = some a := ha
  obtain ⟨chain, hchain⟩ := Option.isSome_iff_exists.mp (hreach a rfl)
  obtain ⟨k, hk, halias⟩ := (Catalog.leadsTo_of_joinChain? hchain hbase).last
  refine ⟨k, hsub k ?_, halias⟩
  rw [Catalog.reach, hchain]
  exact List.mem_of_getLast? hk

/-- A field that may be filtered on needs an alias that is reached by its chain. -/
theorem canReach_filterNeed {field : String} (h : c.CanFilter field) :
    c.CanReach (c.filterNeed field) := by
  obtain ⟨found, hfound, hreach⟩ := h
  rw [Catalog.filterNeed, hfound]
  exact hreach

/-- The chain of a filter is empty, or leads to the alias that its field needs. -/
theorem leadsTo_filterChain {field : String} (h : c.CanFilter field)
    (hne : c.filterChain field ≠ []) :
    ∃ needed ∈ c.filterNeed field, Catalog.LeadsTo (c.filterChain field) needed := by
  have hreach := canReach_filterNeed h
  have hchain : c.filterChain field = c.reach (c.filterNeed field) := rfl
  rw [hchain] at hne ⊢
  cases hneed : c.filterNeed field with
  | none =>
    rw [hneed] at hne
    contradiction
  | some needed =>
    rw [hneed] at hne hreach
    obtain ⟨chain, hfound⟩ := Option.isSome_iff_exists.mp (hreach needed rfl)
    refine ⟨needed, rfl, ?_⟩
    rw [Catalog.reach, hfound] at hne ⊢
    refine Catalog.leadsTo_of_joinChain? hfound ?_
    rintro rfl
    rw [Catalog.joinChain?, if_pos rfl] at hfound
    obtain rfl := Option.some.inj hfound
    exact hne rfl

/-- A subquery over the end of a filter's chain is in scope where the joins before it are joined. -/
theorem Compiles.subqueryScoped (hc : c.WellFormed) (h : q.Compiles c s) {f : Filter}
    (hf : f ∈ q.filters) {before rest : List Join} {key : FanOut} {root : Join}
    (hsplit : JoinPlan.splitFanOut s.joins (c.filterChain f.field) =
      some (before, key, root, rest)) :
    SubqueryScoped c s.joins f.field key root rest := by
  obtain ⟨hchain, hkey, hroot, hbefore⟩ := JoinPlan.splitFanOut_eq_some hsplit
  have hhas : ∀ k ∈ c.filterChain f.field, c.Has k := fun k => Catalog.has_of_mem_reach
  obtain ⟨needed, hneeded, hleads⟩ :=
    leadsTo_filterChain ((filters_iff.mp h.filters).1 f hf) (by simp [hchain])
  have hdirect : JoinPlan.direct (q.selectedPlan c) (c.filterChain f.field) = before := by
    rw [← h.direct_eq, JoinPlan.direct, hsplit]
  have hjoined : ∀ k ∈ before, k ∈ s.joins := fun k hk =>
    h.mem_joins_iff.mpr (.inr (List.mem_flatMap.mpr ⟨f, hf, hdirect ▸ hk⟩))
  rw [hchain] at hleads hhas
  have hlinked := (List.isChain_append.mp hleads.linked).2.1
  have hfresh := JoinPlan.not_joins_of_isChain h.dependenciesFirst (fun _ => h.has_of_mem_joins)
    hlinked (fun k hk => hhas k (List.mem_append_right _ hk)) hroot
  refine {
    chain := ⟨before, hchain, fun k hk _ => hjoined k hk⟩
    key_eq := hkey
    last := ?_
    ordered := ?_
    outer := ?_
    fresh := fun j hj => ⟨?_, ?_⟩ }
  · obtain ⟨k, hk, rfl⟩ := hleads.last
    rw [List.getLast?_append_of_ne_nil _ (by simp)] at hk
    rw [hk, hneeded]
    rfl
  · refine .of_isChain hlinked.tail fun k hk parent hparent => ?_
    rw [(List.isChain_cons.mp hlinked).1 k hk] at hparent
    obtain rfl := Option.some.inj hparent
    exact List.mem_singleton_self _
  · intro parent hparent
    cases hlast : before.getLast? with
    | none =>
      -- Nothing comes before the subquery's table, so it depends on nothing.
      obtain rfl := List.getLast?_eq_none_iff.mp hlast
      rw [hleads.first root rfl] at hparent
      contradiction
    | some k =>
      rw [(List.isChain_append.mp hleads.linked).2.2 k hlast root rfl] at hparent
      obtain rfl := Option.some.inj hparent
      exact ⟨k, hjoined k (List.mem_of_getLast? hlast), rfl⟩
  · exact hc.ne_base j (hhas j (List.mem_append_right _ hj)).mem
  · intro k hk halias
    have hnot := hfresh j hj
    rw [JoinPlan.joins_eq_true.mpr ⟨k, hk, halias⟩] at hnot
    contradiction

/-- What a filter becomes in a statement sees what it needs. -/
theorem Compiles.scoped_predicate (hc : c.WellFormed) (h : q.Compiles c s) {f : Filter}
    (hf : f ∈ q.filters) : f.Scoped c s.joins (f.predicate c (q.selectedPlan c)) := by
  have hhas : ∀ k ∈ c.filterChain f.field, c.Has k := fun k => Catalog.has_of_mem_reach
  have hcan := (filters_iff.mp h.filters).1 f hf
  rw [Filter.predicate, ← h.sameFanOuts.wrap_eq hhas, JoinPlan.wrap]
  split
  · rename_i hsplit
    refine .plain fun needed hneeded => ?_
    have hdirect : JoinPlan.direct (q.selectedPlan c) (c.filterChain f.field) =
        c.filterChain f.field := by
      rw [← h.direct_eq, JoinPlan.direct, hsplit]
    refine exists_joined (canReach_filterNeed hcan) (fun j hj => ?_) hneeded ?_
    · refine h.mem_joins_iff.mpr (.inr (List.mem_flatMap.mpr ⟨f, hf, ?_⟩))
      rw [hdirect]
      exact hj
    · obtain ⟨found, hfound, -⟩ := hcan
      rw [Catalog.filterNeed, hfound] at hneeded
      exact hc.ne_base_of_mem (hc.filterField_join hfound needed hneeded)
  · rename_i before key root rest hsplit
    exact .semiJoin (h.subqueryScoped hc hf hsplit)

/-- The statement of a query over a well formed catalog has the joins that the query needs. -/
theorem Compiles.scoped (hc : c.WellFormed) (hs : q.Compiles c s) : q.Scoped c s := by
  have hselected : ∀ j ∈ q.selectedJoins c, j ∈ s.joins := fun j hj =>
    hs.mem_joins_iff.mpr (.inl hj)
  refine {
    aliases_nodup := ?_
    ordered := hs.dependenciesFirst
    dimensions := fun name hname needed hneeded => ?_
    metrics := fun m hm needed hneeded => ?_
    filters := ?_
    needed := fun j hj => ?_ }
  · refine List.nodup_cons.mpr ⟨fun hmem => ?_, ?_⟩
    · obtain ⟨j, hj, halias⟩ := List.mem_map.mp hmem
      exact hc.ne_base j (hs.has_of_mem_joins hj).mem halias
    · rw [hs.joins_eq]
      exact JoinPlan.aliases_nodup_extend List.nodup_nil
  · refine exists_joined (hs.dimensions name hname).2 (fun j hj => hselected j ?_) hneeded ?_
    · exact List.mem_append_left _ (List.mem_flatMap.mpr ⟨name, hname, hj⟩)
    · obtain ⟨d, hd, hjoin⟩ := Option.bind_eq_some_iff.mp hneeded
      exact hc.ne_base_of_mem (hc.dimension_join (List.mem_of_find?_eq_some hd) needed hjoin)
  · by_cases hbase : needed = baseAlias
    · left
      cases m with
      | custom aggregate => exact ⟨aggregate, rfl, hbase⟩
      | catalog name =>
        obtain ⟨d, hd, hjoin⟩ := Option.bind_eq_some_iff.mp hneeded
        have hdeclared := hc.metric_join (List.mem_of_find?_eq_some hd) needed hjoin
        exact absurd hbase (hc.ne_base_of_mem hdeclared)
    · right
      refine exists_joined (hs.metrics m hm).2 (fun j hj => hselected j ?_) hneeded hbase
      exact List.mem_append_right _ (List.mem_flatMap.mpr ⟨m, hm, hj⟩)
  · refine ⟨_, (filters_iff.mp hs.filters).2.2, ?_⟩
    rw [List.forall₂_map_right_iff, List.forall₂_same]
    exact fun f hf => hs.scoped_predicate hc hf
  · refine (hs.mem_joins_iff.mp hj).imp_right fun hmem => ?_
    obtain ⟨f, hf, hmem⟩ := List.mem_flatMap.mp hmem
    refine ⟨f, hf, ?_⟩
    rwa [hs.direct_eq]

/-- A query that compiles over a consistent catalog becomes a statement in which no two tables share
an alias, joins come after those that they depend on, everything that the query needs is joined and
nothing else, and the subqueries of semi-joins see what they need and hide nothing. -/
theorem joins_scoped (hc : c.Consistent) {out : CompiledQuery} (h : q.compile c = .ok out) :
    ∃ s, q.statement c = .ok s ∧ s.compiled = out ∧ q.Scoped c s := by
  obtain ⟨s, hs, hout⟩ := compile_eq_ok.mp h
  exact ⟨s, statement_eq_ok.mpr hs, hout, hs.scoped (Catalog.consistent_iff.mp hc)⟩

/-- The restaurant catalog with the items that a line of a sale may be ordered with: lines can be
several per sale, and items several per line. -/
def restaurantWithItems : Catalog where
  metrics := Catalog.restaurantMetrics
  dimensions := Catalog.restaurantDimensions ++
    [{ name := "item", expression := "i.name", join := some "i" }]
  filterColumns := Catalog.restaurantColumns
  joins := Catalog.restaurantJoins ++
    [{ table := "item_product_sales", aliasName := "ip", condition := "ps.id = ip.product_sale_id",
       dependsOn := some "ps", fanOut := some ⟨"ps.id", "ip.product_sale_id"⟩ },
      { table := "items", aliasName := "i", condition := "ip.item_id = i.id",
        dependsOn := some "ip" }]

/-- The number of products sold with some item, by store, over a channel. -/
def productsWithItem : ResolvedQuery where
  dimensions := ["store"]
  metrics := [.catalog "qtd_produtos",
    .custom ⟨"COUNT(DISTINCT s.id) AS vendas", "vendas", some "s"⟩]
  filters := [⟨"item", .equals (.text "Bacon")⟩, ⟨"channel", .equals (.text "iFood")⟩]
  dateRange := none
  orderBy := []
  limit := none
  offset := none

/-- The statement of the products sold with an item. -/
def productsWithItemSql : CompiledQuery where
  sql :=
    "SELECT st.name AS store, SUM(ps.quantity) AS qtd_produtos, COUNT(DISTINCT s.id) AS vendas\n" ++
      "FROM sales s\nJOIN stores st ON s.store_id = st.id\n" ++
      "JOIN product_sales ps ON s.id = ps.sale_id\nJOIN channels ch ON s.channel_id = ch.id\n" ++
      "WHERE s.sale_status_desc = 'COMPLETED' AND ps.id IN (SELECT ip.product_sale_id " ++
      "FROM item_product_sales ip JOIN items i ON ip.item_id = i.id WHERE i.name = $1) " ++
      "AND ch.name = $2\nGROUP BY 1"
  params := [.text "Bacon", .text "iFood"]

/-- Lines of sales are joined for the number of products, and the items of a line stand in a
semi-join that depends on them. -/
theorem joins_scoped_productsWithItem :
    restaurantWithItems.Consistent ∧
      productsWithItem.compile restaurantWithItems = .ok productsWithItemSql ∧
      ∃ s, productsWithItem.statement restaurantWithItems = .ok s ∧
        s.compiled = productsWithItemSql ∧ productsWithItem.Scoped restaurantWithItems s := by
  have hc : restaurantWithItems.Consistent := by
    unfold Catalog.Consistent
    decide +kernel
  have hout : productsWithItem.compile restaurantWithItems = .ok productsWithItemSql := by
    decide +kernel
  exact ⟨hc, hout, joins_scoped hc hout⟩

end ResolvedQuery

end SalesQuery
