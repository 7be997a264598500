import Mathlib.Data.List.Chain
import SalesQuery.Catalog.Consistency
import SalesQuery.Proofs.Success

/-!
# What a consistent catalog guarantees

The checks of a catalog are read here as the rules that they decide: `consistent_iff` states at once
all that holds of a catalog without a fault. A query relies on two of its consequences. Every alias
that an entry needs can be reached (`WellFormed.isSome_joinChain?_iff`), and the joins that reach it
(`Catalog.LeadsTo`) form a path: the first depends on nothing, each of the others on the one before
it, and the last has the alias.
-/

namespace SalesQuery

/-! ## The checks -/

namespace Catalog

/-- The aliases of the joins. -/
def aliases (c : Catalog) : List String := c.joins.map (·.aliasName)

/-- What `Catalog.check` has looked at. -/
structure WellFormed (c : Catalog) : Prop where
  /-- No two joins share an alias. -/
  aliases_nodup : c.aliases.Nodup
  /-- No join takes the alias of the base table. -/
  ne_base : ∀ j ∈ c.joins, j.aliasName ≠ baseAlias
  /-- The alias that a join depends on is declared. -/
  dependency : ∀ j ∈ c.joins, ∀ parent ∈ j.dependsOn, parent ∈ c.aliases
  /-- Following the dependencies of a join comes to an end. -/
  chain : ∀ j ∈ c.joins, (c.joinChain? j.aliasName).isSome
  /-- No two metrics or dimensions share a name. -/
  names_nodup : (c.selectable.map (·.1)).Nodup
  /-- The alias that a metric or a dimension needs is declared. -/
  selectable_join : ∀ entry ∈ c.selectable, ∀ needed ∈ entry.2, needed ∈ c.aliases
  /-- No filter column has the name of a dimension. -/
  column_new : ∀ column ∈ c.filterColumns, c.dimension? column.name = none
  /-- The alias that a filter column needs is declared. -/
  column_join : ∀ column ∈ c.filterColumns, ∀ needed ∈ column.join, needed ∈ c.aliases

/-- Names are new, one after the other, if the first is and the others are new with it. -/
theorem nodup_and_new_cons {α : Type} {name : α → String} {seen : List String} {a : α} {l : List α}
    (ha : name a ∉ seen) :
    (((a :: l).map name).Nodup ∧ ∀ b ∈ a :: l, name b ∉ seen) ↔
      (l.map name).Nodup ∧ ∀ b ∈ l, name b ∉ name a :: seen := by
  rw [List.map_cons, List.nodup_cons, List.forall_mem_cons]
  simp only [List.mem_map, List.mem_cons, not_or, not_exists, not_and]
  constructor
  · rintro ⟨⟨hne, hnodup⟩, _, hnew⟩
    exact ⟨hnodup, fun b hb => ⟨hne b hb, hnew b hb⟩⟩
  · rintro ⟨hnodup, hnew⟩
    exact ⟨⟨fun b hb => (hnew b hb).1, hnodup⟩, ha, fun b hb => (hnew b hb).2⟩

/-- The aliases of a list of joins pass if they are new, and none is that of the base table. -/
theorem checkAliases_eq_ok {seen : List String} {l : List Join} :
    checkAliases seen l = .ok () ↔
      ((l.map (·.aliasName)).Nodup ∧ ∀ j ∈ l, j.aliasName ∉ seen) ∧
        ∀ j ∈ l, j.aliasName ≠ baseAlias := by
  induction l generalizing seen with
  | nil => simp [checkAliases]
  | cons join rest ih =>
    rw [checkAliases]
    split
    · rename_i hbase
      simp [hbase]
    · rename_i hbase
      split
      · rename_i hseen
        simp [hseen]
      · rename_i hnew
        rw [ih, nodup_and_new_cons hnew, List.forall_mem_cons, and_iff_right hbase]

/-- A reference passes if the alias is declared. -/
theorem checkReference_eq_ok {aliases : List String} {name : String} {needed : Option String} :
    checkReference aliases name needed = .ok () ↔ ∀ a ∈ needed, a ∈ aliases := by
  cases needed with
  | none => simp [checkReference]
  | some aliasName => simp [checkReference]

/-- The dependencies pass if each is declared and each chain ends. -/
theorem checkDependencies_eq_ok {c : Catalog} :
    checkDependencies c = .ok () ↔
      ∀ j ∈ c.joins, (∀ parent ∈ j.dependsOn, parent ∈ c.aliases) ∧
        (c.joinChain? j.aliasName).isSome := by
  rw [checkDependencies, forM_eq_ok]
  refine forall₂_congr fun join _ => ?_
  rw [check_bind_eq_ok, checkReference_eq_ok]
  split
  · rename_i hnone
    simp [throw_eq_ok, Option.isNone_iff_eq_none.mp hnone]
  · rename_i hsome
    simp only [Option.isNone_iff_eq_none, ← Option.isSome_iff_ne_none] at hsome
    simp [pure_eq_ok, hsome, aliases]

/-- Names pass if they are new, and the join of each is declared. -/
theorem checkNames_eq_ok {aliases seen : List String} {l : List (String × Option String)} :
    checkNames aliases seen l = .ok () ↔
      ((l.map (·.1)).Nodup ∧ ∀ entry ∈ l, entry.1 ∉ seen) ∧
        ∀ entry ∈ l, ∀ needed ∈ entry.2, needed ∈ aliases := by
  induction l generalizing seen with
  | nil => simp [checkNames]
  | cons entry rest ih =>
    obtain ⟨name, needed⟩ := entry
    rw [checkNames]
    dsimp only
    split
    · rename_i hseen
      rw [throw_bind_eq_ok]
      simp [hseen]
    · rename_i hnew
      rw [check_bind_eq_ok, checkReference_eq_ok, ih, nodup_and_new_cons hnew,
        List.forall_mem_cons, and_left_comm]

/-- The filter columns pass if none has the name of a dimension, and the join of each is
declared. -/
theorem checkColumns_eq_ok {c : Catalog} :
    checkColumns c = .ok () ↔
      ∀ column ∈ c.filterColumns, c.dimension? column.name = none ∧
        ∀ needed ∈ column.join, needed ∈ c.aliases := by
  rw [checkColumns, forM_eq_ok]
  refine forall₂_congr fun column _ => ?_
  dsimp only
  split
  · rename_i hsome
    rw [throw_bind_eq_ok]
    simp [Option.isSome_iff_ne_none.mp hsome]
  · rename_i hnone
    rw [checkReference_eq_ok, Option.not_isSome_iff_eq_none.mp hnone]
    simp [aliases]

/-- A catalog has no fault exactly if it is well formed. -/
theorem consistent_iff {c : Catalog} : c.Consistent ↔ c.WellFormed := by
  rw [Consistent, check]
  rw [check_bind_eq_ok, check_bind_eq_ok, check_bind_eq_ok, checkAliases_eq_ok,
    checkDependencies_eq_ok, checkNames_eq_ok, checkColumns_eq_ok]
  constructor
  · rintro ⟨⟨⟨hnodup, -⟩, hbase⟩, hdeps, ⟨⟨hnames, -⟩, hjoins⟩, hcolumns⟩
    exact {
      aliases_nodup := hnodup
      ne_base := hbase
      dependency := fun j hj => (hdeps j hj).1
      chain := fun j hj => (hdeps j hj).2
      names_nodup := hnames
      selectable_join := hjoins
      column_new := fun column hcolumn => (hcolumns column hcolumn).1
      column_join := fun column hcolumn => (hcolumns column hcolumn).2 }
  · intro h
    exact ⟨⟨⟨h.aliases_nodup, by simp⟩, h.ne_base⟩,
      fun j hj => ⟨h.dependency j hj, h.chain j hj⟩,
      ⟨⟨h.names_nodup, by simp⟩, h.selectable_join⟩,
      fun column hcolumn => ⟨h.column_new column hcolumn, h.column_join column hcolumn⟩⟩

/-! ## Chains -/

/-- Joins that lead from the base table to an alias. -/
structure LeadsTo (chain : List Join) (aliasName : String) : Prop where
  /-- Each join depends on the one before it. -/
  linked : chain.IsChain fun j k => k.dependsOn = some j.aliasName
  /-- The first join depends on nothing. -/
  first : ∀ j ∈ chain.head?, j.dependsOn = none
  /-- The last join has the alias. -/
  last : ∃ j ∈ chain.getLast?, j.aliasName = aliasName

/-- The chain back from an alias, turned round, leads to it. -/
theorem leadsTo_of_chainBack {joins : List Join} {limit : Nat} {aliasName : String}
    {chain : List Join} (h : chainBack joins limit aliasName = some chain) :
    LeadsTo chain.reverse aliasName := by
  induction limit generalizing aliasName chain with
  | zero => contradiction
  | succ limit ih =>
    rw [chainBack] at h
    obtain ⟨join, hjoin, h⟩ := Option.bind_eq_some_iff.mp h
    have halias : join.aliasName = aliasName := by simpa using List.find?_some hjoin
    split at h
    · rename_i hnone
      obtain rfl := Option.some.inj h
      exact ⟨List.isChain_singleton join, by simpa using hnone, join, by simp, halias⟩
    · rename_i parent hparent
      obtain ⟨rest, hrest, h⟩ := Option.bind_eq_some_iff.mp h
      obtain rfl := Option.some.inj h
      -- What comes before the join leads to the alias that it depends on.
      obtain ⟨hlinked, hfirst, before, hbefore, hname⟩ := ih hrest
      have hne : rest.reverse ≠ [] := by
        intro hnil
        rw [hnil] at hbefore
        contradiction
      rw [List.reverse_cons]
      refine ⟨?_, ?_, join, by simp, halias⟩
      · refine List.isChain_append.mpr ⟨hlinked, List.isChain_singleton join, ?_⟩
        intro j hj k hk
        obtain rfl := Option.mem_unique hbefore hj
        obtain rfl : join = k := by simpa using hk
        rw [hparent, hname]
      · rw [List.head?_append_of_ne_nil _ hne]
        exact hfirst

/-- The joins that reach an alias other than that of the base table lead to it. -/
theorem leadsTo_of_joinChain? {c : Catalog} {aliasName : String} {chain : List Join}
    (h : c.joinChain? aliasName = some chain) (hbase : aliasName ≠ baseAlias) :
    LeadsTo chain aliasName := by
  rw [joinChain?, if_neg hbase] at h
  obtain ⟨back, hback, rfl⟩ := Option.map_eq_some_iff.mp h
  exact leadsTo_of_chainBack hback

/-! ## Aliases that entries need -/

variable {c : Catalog}

/-- An alias is known exactly if it is declared or that of the base table. -/
theorem knowsAlias_iff {aliasName : String} :
    c.knowsAlias aliasName = true ↔ aliasName = baseAlias ∨ aliasName ∈ c.aliases := by
  simp [knowsAlias, join?, aliases]

/-- No alias that is not known can be reached. -/
theorem knowsAlias_of_joinChain? {aliasName : String} (h : (c.joinChain? aliasName).isSome) :
    c.knowsAlias aliasName = true := by
  rw [knowsAlias_iff]
  by_cases hbase : aliasName = baseAlias
  · exact .inl hbase
  · obtain ⟨chain, hchain⟩ := Option.isSome_iff_exists.mp h
    rw [joinChain?, if_neg hbase] at hchain
    obtain ⟨back, hback, -⟩ := Option.map_eq_some_iff.mp hchain
    rw [chainBack] at hback
    obtain ⟨join, hjoin, -⟩ := Option.bind_eq_some_iff.mp hback
    have halias : join.aliasName = aliasName := by simpa using List.find?_some hjoin
    exact .inr (List.mem_map.mpr ⟨join, List.mem_of_find?_eq_some hjoin, halias⟩)

namespace WellFormed

/-- In a well formed catalog, every known alias can be reached. -/
theorem isSome_joinChain?_iff (h : c.WellFormed) {aliasName : String} :
    (c.joinChain? aliasName).isSome ↔ c.knowsAlias aliasName = true := by
  refine ⟨knowsAlias_of_joinChain?, fun hknown => ?_⟩
  rcases knowsAlias_iff.mp hknown with rfl | hdeclared
  · simp [joinChain?]
  · obtain ⟨join, hjoin, rfl⟩ := List.mem_map.mp hdeclared
    exact h.chain join hjoin

/-- No declared alias is that of the base table. -/
theorem ne_base_of_mem (h : c.WellFormed) {aliasName : String} (ha : aliasName ∈ c.aliases) :
    aliasName ≠ baseAlias := by
  obtain ⟨join, hjoin, rfl⟩ := List.mem_map.mp ha
  exact h.ne_base join hjoin

/-- The alias that a dimension needs is declared. -/
theorem dimension_join (h : c.WellFormed) {d : Dimension} (hd : d ∈ c.dimensions) :
    ∀ needed ∈ d.join, needed ∈ c.aliases :=
  h.selectable_join (d.name, d.join)
    (List.mem_append_right _ (List.mem_map.mpr ⟨d, hd, rfl⟩))

/-- The alias that a metric needs is declared. -/
theorem metric_join (h : c.WellFormed) {m : Metric} (hm : m ∈ c.metrics) :
    ∀ needed ∈ m.join, needed ∈ c.aliases :=
  h.selectable_join (m.name, m.join)
    (List.mem_append_left _ (List.mem_map.mpr ⟨m, hm, rfl⟩))

/-- The alias that a field of a filter needs is declared. -/
theorem filterField_join (h : c.WellFormed) {name : String} {field : FilterField}
    (hfield : c.filterField? name = some field) : ∀ needed ∈ field.join, needed ∈ c.aliases := by
  rw [filterField?] at hfield
  split at hfield
  · rename_i d hd
    obtain rfl := Option.some.inj hfield
    exact h.dimension_join (List.mem_of_find?_eq_some hd)
  · obtain ⟨column, hcolumn, rfl⟩ := Option.map_eq_some_iff.mp hfield
    exact h.column_join column (List.mem_of_find?_eq_some hcolumn)

end WellFormed

end Catalog

end SalesQuery
