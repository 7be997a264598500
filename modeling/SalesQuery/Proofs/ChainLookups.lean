import SalesQuery.Proofs.DependencyChains

/-!
# How often joins are looked up

`followDependencies` follows the dependencies from an alias join by join and counts the lookups. It
remembers no alias, only how many joins it has passed, and gives up at the lookup after it has passed
more joins than are declared, so it ends for every list of joins (`lookups_followDependencies`). What
it finds is the chain of the alias (`found_followDependencies`), and that is the path of the alias
whenever there is one, since no path is longer than the list (`DependencyPath.length_le`). Together
this is `Catalog.joinChain?_decides`, which asks nothing of the catalog: aliases may be repeated, not
declared, or depend on each other in circles.
-/

namespace SalesQuery

/-- What following the dependencies from an alias comes to. -/
structure ChainSearch where
  /-- The joins that were passed, the last one first, if the last depends on nothing. -/
  found : Option (List Join)
  /-- How often a join was looked up by its alias. -/
  lookups : Nat

/-- Follows the dependencies from an alias, after some joins were passed. -/
def followDependencies (joins passed : List Join) (aliasName : String) : ChainSearch :=
  match joins.find? fun j => j.aliasName = aliasName with
  | none => ⟨none, 1⟩
  | some join =>
    if joins.length < passed.length then ⟨none, 1⟩
    else
      match join.dependsOn with
      | none => ⟨some (join :: passed), 1⟩
      | some parent =>
        let search := followDependencies joins (join :: passed) parent
        ⟨search.found, search.lookups + 1⟩
termination_by joins.length + 1 - passed.length

/-- Looks for the joins that reach an alias, and counts the lookups. The base table needs none. -/
def Catalog.chainSearch (c : Catalog) (aliasName : String) : ChainSearch :=
  if aliasName = baseAlias then ⟨some [], 0⟩ else followDependencies c.joins [] aliasName

variable {joins passed : List Join} {aliasName : String}

/-- What is found is the chain back from the alias, ahead of the joins that were passed before. -/
theorem found_followDependencies (joins passed : List Join) (aliasName : String) :
    (followDependencies joins passed aliasName).found =
      (chainBack joins (joins.length + 1 - passed.length) aliasName).map
        fun path => path.reverse ++ passed := by
  -- Each join passed takes one from what is left of the limit of `chainBack`.
  fun_induction followDependencies joins passed aliasName with
  | case1 passed aliasName hfound =>
    cases joins.length + 1 - passed.length with
    | zero => rfl
    | succ limit => simp [chainBack, hfound]
  | case2 passed aliasName join hfound hmany =>
    have hlimit : joins.length + 1 - passed.length = 0 := by omega
    rw [hlimit]
    rfl
  | case3 passed aliasName join hfound hfew hlast =>
    have hlimit : joins.length + 1 - passed.length = joins.length - passed.length + 1 := by omega
    rw [hlimit, chainBack]
    simp [hfound, hlast]
  | case4 passed aliasName join hfound hfew parent hnext search ih =>
    have hlimit : joins.length + 1 - passed.length =
        joins.length + 1 - (join :: passed).length + 1 := by
      rw [List.length_cons]
      omega
    dsimp only
    rw [ih, hlimit, chainBack]
    generalize joins.length + 1 - (join :: passed).length = limit
    cases hrest : chainBack joins limit parent with
    | none => simp [hfound, hnext, hrest]
    | some rest => simp [hfound, hnext, hrest]

/-- Together with the joins that were passed before, there are at most two lookups more than joins
declared. -/
theorem lookups_followDependencies (h : passed.length ≤ joins.length + 1) :
    (followDependencies joins passed aliasName).lookups + passed.length ≤ joins.length + 2 := by
  fun_induction followDependencies joins passed aliasName with
  | case1 | case2 | case3 =>
    dsimp only
    omega
  | case4 passed aliasName join hfound hfew parent hnext search ih =>
    rw [List.length_cons] at ih
    have hrest := ih (by omega)
    dsimp only [search]
    omega

/-- For what is found, every join took one lookup. -/
theorem length_of_found {chain : List Join}
    (h : (followDependencies joins passed aliasName).found = some chain) :
    chain.length = (followDependencies joins passed aliasName).lookups + passed.length := by
  fun_induction followDependencies joins passed aliasName with
  | case1 | case2 => contradiction
  | case3 passed aliasName join =>
    obtain rfl := Option.some.inj h
    rw [List.length_cons, Nat.add_comm]
  | case4 passed aliasName join hfound hfew parent hnext search ih =>
    have hlength := ih h
    rw [List.length_cons] at hlength
    dsimp only [search]
    omega

namespace Catalog

/-- The search finds what `joinChain?` returns. -/
theorem found_chainSearch (c : Catalog) (aliasName : String) :
    (c.chainSearch aliasName).found = c.joinChain? aliasName := by
  rw [chainSearch, joinChain?]
  split
  · rfl
  · rw [found_followDependencies]
    simp

/-- The joins that reach an alias are found after at most two lookups more than there are joins, or
not at all. Nothing is needed for the alias of the base table. For any other alias, a chain is
returned exactly if following the dependencies, each time through the first join with the alias,
comes to a join without one; the chain is what was passed on the way, one join for each lookup, and
never longer than the list of joins. -/
theorem joinChain?_decides (c : Catalog) (aliasName : String) :
    (c.chainSearch aliasName).found = c.joinChain? aliasName ∧
      (c.chainSearch aliasName).lookups ≤ c.joins.length + 2 ∧
      (∀ chain, c.joinChain? aliasName = some chain ↔
        (aliasName = baseAlias ∧ chain = []) ∨
          (aliasName ≠ baseAlias ∧ DependencyPath c.joins aliasName chain.reverse)) ∧
      ∀ chain, c.joinChain? aliasName = some chain →
        chain.length ≤ c.joins.length ∧ chain.length = (c.chainSearch aliasName).lookups := by
  have hfound := c.found_chainSearch aliasName
  by_cases hbase : aliasName = baseAlias
  · have hsearch : c.chainSearch aliasName = ⟨some [], 0⟩ := if_pos hbase
    have hchain : c.joinChain? aliasName = some [] := if_pos hbase
    refine ⟨hfound, by simp [hsearch], fun chain => ?_, fun chain h => ?_⟩
    · rw [hchain]
      simp [hbase, eq_comm]
    · obtain rfl := Option.some.inj (hchain.symm.trans h)
      simp [hsearch]
  · have hsearch : c.chainSearch aliasName = followDependencies c.joins [] aliasName := if_neg hbase
    have hlookups : (followDependencies c.joins [] aliasName).lookups + 0 ≤ c.joins.length + 2 :=
      lookups_followDependencies (Nat.zero_le _)
    refine ⟨hfound, hsearch ▸ hlookups, fun chain => ?_, fun chain h => ?_⟩
    · rw [joinChain?_eq_some_iff hbase]
      simp [hbase]
    · have hpath := (joinChain?_eq_some_iff hbase).mp h
      have hlength : chain.length = (followDependencies c.joins [] aliasName).lookups + 0 :=
        length_of_found (by rw [← hsearch, hfound, h])
      refine ⟨?_, hsearch ▸ hlength⟩
      rw [← List.length_reverse]
      exact hpath.length_le

/-- Joins of which three form a chain, one depends on itself, two on each other, and one on an alias
that is not declared. A second join takes the alias of one in the chain. -/
def tangled : Catalog where
  metrics := []
  dimensions := []
  filterColumns := []
  joins :=
    [⟨"ta", "a", "on a", .inner, some "b", none⟩, ⟨"tb", "b", "on b", .inner, some "c", none⟩,
      ⟨"tx", "b", "on x", .inner, some "a", none⟩, ⟨"td", "d", "on d", .inner, some "d", none⟩,
      ⟨"te", "e", "on e", .inner, some "f", none⟩, ⟨"tf", "f", "on f", .inner, some "e", none⟩,
      ⟨"tg", "g", "on g", .inner, some "z", none⟩, ⟨"tc", "c", "on c", .inner, none, none⟩]

/-- The chain is found through the first join of the repeated alias, with one lookup for each join.
The search from a join in a circle ends as well, after at most ten lookups, and there is no path. -/
theorem joinChain?_decides_tangled :
    (∃ chain, tangled.joinChain? "a" = some chain ∧ chain.map (·.table) = ["tc", "tb", "ta"] ∧
        (tangled.chainSearch "a").lookups = 3) ∧
      tangled.joinChain? "e" = none ∧ (tangled.chainSearch "e").lookups ≤ 10 ∧
      ∀ path, ¬ DependencyPath tangled.joins "e" path := by
  obtain ⟨-, -, -, hlength⟩ := joinChain?_decides tangled "a"
  obtain ⟨-, hlookups, hpaths, -⟩ := joinChain?_decides tangled "e"
  have htables : (tangled.joinChain? "a").map (fun chain => chain.map (·.table)) =
      some ["tc", "tb", "ta"] := by decide +kernel
  obtain ⟨chain, hchain, hnames⟩ := Option.map_eq_some_iff.mp htables
  have hthree : chain.length = 3 := by rw [← List.length_map (f := (·.table)), hnames]; rfl
  have hnone : tangled.joinChain? "e" = none := by decide +kernel
  refine ⟨⟨chain, hchain, hnames, (hlength chain hchain).2.symm.trans hthree⟩, hnone, hlookups,
    fun path hpath => ?_⟩
  have hfound := (hpaths path.reverse).mpr (.inr ⟨by decide, by rwa [List.reverse_reverse]⟩)
  rw [hnone] at hfound
  contradiction

end Catalog

end SalesQuery
