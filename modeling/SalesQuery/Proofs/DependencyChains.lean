import Mathlib.Data.List.Nodup
import SalesQuery.Catalog.Restaurant
import SalesQuery.Proofs.CatalogConsistency
import SalesQuery.Proofs.PlanSteps

/-!
# Which catalogs are consistent

The chain of an alias is looked for with a bound on its length. `DependencyPath` follows the
dependencies without one: a path, if there is any, is the only one from its alias, so it cannot pass
a join twice and has at most as many joins as are declared. Hence the bound cuts no path short
(`chainBack_eq_some_iff`, `joinChain?_eq_some_iff`), and a catalog is consistent exactly if it keeps
the rules of `Catalog.Sound`, which know of no bound (`Catalog.consistent_iff_sound`).
-/

namespace SalesQuery

/-! ## Paths without a bound -/

/-- Following the dependencies from an alias, each time through the first join that has it, ends
after these joins. -/
inductive DependencyPath (joins : List Join) : String → List Join → Prop
  /-- The join of the alias depends on nothing. -/
  | last {aliasName : String} {j : Join}
    (hfound : joins.find? (fun k => k.aliasName = aliasName) = some j)
    (hlast : j.dependsOn = none) : DependencyPath joins aliasName [j]
  /-- The join of the alias depends on another alias, from which the path goes on. -/
  | next {aliasName parent : String} {j : Join} {rest : List Join}
    (hfound : joins.find? (fun k => k.aliasName = aliasName) = some j)
    (hnext : j.dependsOn = some parent) (hrest : DependencyPath joins parent rest) :
    DependencyPath joins aliasName (j :: rest)

/-- The chain back from an alias is its path, if that is not longer than the limit. -/
theorem chainBack_eq_some_iff {joins : List Join} {limit : Nat} {aliasName : String}
    {path : List Join} :
    chainBack joins limit aliasName = some path ↔
      DependencyPath joins aliasName path ∧ path.length ≤ limit := by
  constructor
  · intro h
    induction limit generalizing aliasName path with
    | zero => contradiction
    | succ limit ih =>
      rw [chainBack] at h
      obtain ⟨j, hfound, h⟩ := Option.bind_eq_some_iff.mp h
      split at h
      · rename_i hlast
        obtain rfl := Option.some.inj h
        exact ⟨.last hfound hlast, Nat.succ_le_succ (Nat.zero_le limit)⟩
      · rename_i parent hnext
        obtain ⟨rest, hrest, h⟩ := Option.bind_eq_some_iff.mp h
        obtain rfl := Option.some.inj h
        obtain ⟨hpath, hlength⟩ := ih hrest
        exact ⟨.next hfound hnext hpath, Nat.succ_le_succ hlength⟩
  · rintro ⟨hpath, hlength⟩
    induction hpath generalizing limit with
    | last hfound hlast =>
      obtain ⟨limit, rfl⟩ := Nat.exists_eq_succ_of_ne_zero (Nat.ne_zero_of_lt hlength)
      rw [chainBack]
      simp [hfound, hlast]
    | next hfound hnext _ ih =>
      obtain ⟨limit, rfl⟩ := Nat.exists_eq_succ_of_ne_zero (Nat.ne_zero_of_lt hlength)
      rw [chainBack]
      simp [hfound, hnext, ih (Nat.le_of_succ_le_succ hlength)]

namespace DependencyPath

variable {joins : List Join} {aliasName : String} {path : List Join}

/-- From an alias there is at most one path. -/
theorem unique {path' : List Join} (h : DependencyPath joins aliasName path)
    (h' : DependencyPath joins aliasName path') : path = path' := by
  induction h generalizing path' with
  | last hfound hlast =>
    cases h' with
    | last hfound' _ => rw [Option.some.inj (hfound.symm.trans hfound')]
    | next hfound' hnext _ =>
      obtain rfl := Option.some.inj (hfound.symm.trans hfound')
      rw [hlast] at hnext
      contradiction
  | next hfound hnext _ ih =>
    cases h' with
    | last hfound' hlast =>
      obtain rfl := Option.some.inj (hfound.symm.trans hfound')
      rw [hnext] at hlast
      contradiction
    | next hfound' hnext' hrest' =>
      obtain rfl := Option.some.inj (hfound.symm.trans hfound')
      obtain rfl := Option.some.inj (hnext.symm.trans hnext')
      rw [ih hrest']

/-- Each join of a path is the first one that has its alias. -/
theorem find?_of_mem (h : DependencyPath joins aliasName path) {j : Join} (hj : j ∈ path) :
    joins.find? (fun k => k.aliasName = j.aliasName) = some j :=
  find?_of_mem_chainBack (chainBack_eq_some_iff.mpr ⟨h, Nat.le_refl _⟩) hj

/-- The joins of a path are declared. -/
theorem mem_joins (h : DependencyPath joins aliasName path) {j : Join} (hj : j ∈ path) :
    j ∈ joins :=
  List.mem_of_find?_eq_some (h.find?_of_mem hj)

/-- From each join of a path on, the rest of the path is the path of its alias. -/
theorem of_mem (h : DependencyPath joins aliasName path) {j : Join} (hj : j ∈ path) :
    ∃ before rest, path = before ++ j :: rest ∧ DependencyPath joins j.aliasName (j :: rest) := by
  have hknown := h.find?_of_mem hj
  induction h with
  | last _ hlast =>
    obtain rfl := List.mem_singleton.mp hj
    exact ⟨[], [], rfl, .last hknown hlast⟩
  | @next _ _ first rest _ hnext hrest ih =>
    rcases List.mem_cons.mp hj with rfl | hj
    · exact ⟨[], rest, rfl, .next hknown hnext hrest⟩
    · obtain ⟨before, after, rfl, hpath⟩ := ih hj
      exact ⟨first :: before, after, rfl, hpath⟩

/-- A path that came back to its first join would have no end. -/
theorem nodup (h : DependencyPath joins aliasName path) : path.Nodup := by
  induction h with
  | last => exact List.pairwise_singleton _ _
  | @next aliasName parent j rest hfound hnext hrest ih =>
    refine List.nodup_cons.mpr ⟨fun hj => ?_, ih⟩
    obtain ⟨before, after, rfl, hpath⟩ := hrest.of_mem hj
    have halias : j.aliasName = aliasName := by simpa using List.find?_some hfound
    rw [halias] at hpath
    -- The path from here and the path from its later visit are the same, but not equally long.
    have hlength := congrArg List.length ((next hfound hnext hrest).unique hpath)
    simp only [List.length_cons, List.length_append] at hlength
    omega

/-- A path has at most as many joins as are declared. -/
theorem length_le (h : DependencyPath joins aliasName path) : path.length ≤ joins.length :=
  h.nodup.length_le_of_subset fun _ => h.mem_joins

/-- The aliases of a path are different, since each alias has one join. -/
theorem aliases_nodup (h : DependencyPath joins aliasName path) :
    (path.map (·.aliasName)).Nodup := by
  refine List.Nodup.map_on (fun j hj k hk halias => ?_) h.nodup
  have hfound := h.find?_of_mem hj
  rw [halias, h.find?_of_mem hk] at hfound
  exact (Option.some.inj hfound).symm

end DependencyPath

namespace Catalog

variable {c : Catalog}

/-- An alias other than that of the base table is reached by its path, with what each join depends
on before it. The bound on the length of chains is no hindrance. -/
theorem joinChain?_eq_some_iff {aliasName : String} {chain : List Join}
    (hbase : aliasName ≠ baseAlias) :
    c.joinChain? aliasName = some chain ↔ DependencyPath c.joins aliasName chain.reverse := by
  rw [joinChain?, if_neg hbase, Option.map_eq_some_iff]
  constructor
  · rintro ⟨path, hpath, rfl⟩
    rw [List.reverse_reverse]
    exact (chainBack_eq_some_iff.mp hpath).1
  · intro h
    have hlength : chain.reverse.length ≤ c.joins.length + 1 := Nat.le_succ_of_le h.length_le
    exact ⟨chain.reverse, chainBack_eq_some_iff.mpr ⟨h, hlength⟩, List.reverse_reverse chain⟩

/-- No two joins of a chain have one alias. -/
theorem aliases_nodup_of_joinChain? {aliasName : String} {chain : List Join}
    (h : c.joinChain? aliasName = some chain) : (chain.map (·.aliasName)).Nodup := by
  by_cases hbase : aliasName = baseAlias
  · rw [joinChain?, if_pos hbase] at h
    obtain rfl := Option.some.inj h
    exact List.nodup_nil
  · have hnodup := ((joinChain?_eq_some_iff hbase).mp h).aliases_nodup
    rwa [List.map_reverse, List.nodup_reverse] at hnodup

/-- No two joins that an expression needs have one alias. -/
theorem aliases_nodup_reach (c : Catalog) (needed : Option String) :
    ((c.reach needed).map (·.aliasName)).Nodup := by
  cases needed with
  | none => exact List.nodup_nil
  | some aliasName =>
    rw [reach]
    cases hchain : c.joinChain? aliasName with
    | none => exact List.nodup_nil
    | some chain => exact aliases_nodup_of_joinChain? hchain

/-! ## Consistent catalogs -/

/-- The rules for the entries of a catalog. -/
structure Sound (c : Catalog) : Prop where
  /-- No two joins share an alias, and none takes that of the base table. -/
  aliases : (baseAlias :: c.aliases).Nodup
  /-- The alias that a join depends on is declared. -/
  dependency : ∀ j ∈ c.joins, ∀ parent ∈ j.dependsOn, parent ∈ c.aliases
  /-- Following the dependencies of a join comes to an end. -/
  path : ∀ j ∈ c.joins, ∃ path, DependencyPath c.joins j.aliasName path
  /-- No two metrics or dimensions share a name. -/
  names : (c.metrics.map (·.name) ++ c.dimensions.map (·.name)).Nodup
  /-- No filter column has the name of a dimension. -/
  columns : ∀ column ∈ c.filterColumns, column.name ∉ c.dimensions.map (·.name)
  /-- The alias that a metric needs is declared. -/
  metric_join : ∀ m ∈ c.metrics, ∀ needed ∈ m.join, needed ∈ c.aliases
  /-- The alias that a dimension needs is declared. -/
  dimension_join : ∀ d ∈ c.dimensions, ∀ needed ∈ d.join, needed ∈ c.aliases
  /-- The alias that a filter column needs is declared. -/
  column_join : ∀ column ∈ c.filterColumns, ∀ needed ∈ column.join, needed ∈ c.aliases

/-- No dimension has a name exactly if none is found under it. -/
theorem dimension?_eq_none_iff {name : String} :
    c.dimension? name = none ↔ name ∉ c.dimensions.map (·.name) := by
  rw [dimension?, List.find?_eq_none]
  simp only [decide_eq_true_eq, List.mem_map, not_exists, not_and]

/-- Where the alias of the base table differs from those of the joins, no join takes it. -/
theorem ne_baseAlias_of_nodup (h : (baseAlias :: c.aliases).Nodup) {j : Join} (hj : j ∈ c.joins) :
    j.aliasName ≠ baseAlias := by
  intro heq
  exact (List.nodup_cons.mp h).1 (heq ▸ List.mem_map_of_mem hj)

/-- What the checks look at is what the rules ask for. -/
theorem wellFormed_iff_sound : c.WellFormed ↔ c.Sound := by
  have hnames : c.selectable.map (·.1) = c.metrics.map (·.name) ++ c.dimensions.map (·.name) := by
    simp [selectable, Function.comp_def]
  constructor
  · intro h
    refine {
      aliases := List.nodup_cons.mpr ⟨fun hmem => h.ne_base_of_mem hmem rfl, h.aliases_nodup⟩
      dependency := h.dependency
      path := fun j hj => ?_
      names := hnames ▸ h.names_nodup
      columns := fun column hcolumn => dimension?_eq_none_iff.mp (h.column_new column hcolumn)
      metric_join := fun m hm => h.metric_join hm
      dimension_join := fun d hd => h.dimension_join hd
      column_join := h.column_join }
    obtain ⟨chain, hchain⟩ := Option.isSome_iff_exists.mp (h.chain j hj)
    exact ⟨_, (joinChain?_eq_some_iff (h.ne_base j hj)).mp hchain⟩
  · intro h
    have hne : ∀ j ∈ c.joins, j.aliasName ≠ baseAlias := fun j => ne_baseAlias_of_nodup h.aliases
    refine {
      aliases_nodup := h.aliases.of_cons
      ne_base := hne
      dependency := h.dependency
      chain := fun j hj => ?_
      names_nodup := hnames ▸ h.names
      selectable_join := fun entry hentry => ?_
      column_new := fun column hcolumn => dimension?_eq_none_iff.mpr (h.columns column hcolumn)
      column_join := h.column_join }
    · obtain ⟨path, hpath⟩ := h.path j hj
      rw [← List.reverse_reverse path] at hpath
      rw [(joinChain?_eq_some_iff (hne j hj)).mpr hpath]
      rfl
    · rcases List.mem_append.mp hentry with hentry | hentry
      · obtain ⟨m, hm, rfl⟩ := List.mem_map.mp hentry
        exact h.metric_join m hm
      · obtain ⟨d, hd, rfl⟩ := List.mem_map.mp hentry
        exact h.dimension_join d hd

/-- A catalog passes its checks exactly if it keeps the rules. Then every declared alias is reached
by declared joins with different aliases, of which the first depends on nothing, each of the others
on the one before it, and the last has the alias. -/
theorem consistent_iff_sound (c : Catalog) :
    (c.Consistent ↔ c.Sound) ∧
      (c.Consistent → ∀ aliasName ∈ c.aliases, ∃ chain, c.joinChain? aliasName = some chain ∧
        chain ≠ [] ∧ (chain.map (·.aliasName)).Nodup ∧ (∀ j ∈ chain, j ∈ c.joins) ∧
        LeadsTo chain aliasName) := by
  refine ⟨consistent_iff.trans wellFormed_iff_sound, fun hc aliasName halias => ?_⟩
  have hwell := consistent_iff.mp hc
  have hbase := hwell.ne_base_of_mem halias
  obtain ⟨j, hj, rfl⟩ := List.mem_map.mp halias
  obtain ⟨chain, hchain⟩ := Option.isSome_iff_exists.mp (hwell.chain j hj)
  have hpath := (joinChain?_eq_some_iff hbase).mp hchain
  have hleads := leadsTo_of_joinChain? hchain hbase
  refine ⟨chain, hchain, ?_, aliases_nodup_of_joinChain? hchain,
    fun k hk => hpath.mem_joins (List.mem_reverse.mpr hk), hleads⟩
  rintro rfl
  obtain ⟨k, hk, -⟩ := hleads.last
  contradiction

/-- The built-in catalog passes its checks, and reaches the categories of products over the products
and the lines of sales. -/
theorem consistent_iff_sound_restaurant :
    restaurant.Consistent ∧ restaurant.Sound ∧ ∃ chain, restaurant.joinChain? "cat" = some chain ∧
      chain.map (·.aliasName) = ["ps", "p", "cat"] ∧ LeadsTo chain "cat" := by
  have hc : restaurant.Consistent := by
    unfold Consistent
    decide +kernel
  obtain ⟨hsound, hchains⟩ := consistent_iff_sound restaurant
  obtain ⟨chain, hchain, -, -, -, hleads⟩ := hchains hc "cat" (by decide +kernel)
  refine ⟨hc, hsound.mp hc, chain, hchain, ?_, hleads⟩
  have hnames : (restaurant.joinChain? "cat").map (fun l => l.map (·.aliasName)) =
      some ["ps", "p", "cat"] := by decide +kernel
  rw [hchain] at hnames
  exact Option.some.inj hnames

end Catalog

end SalesQuery
