import Mathlib.Data.Fintype.Card
import Mathlib.Data.Set.Finite.List
import SalesQuery.Proofs.DependencyChains
import SalesQuery.Proofs.Faults
import SalesQuery.Proofs.FirstEntries

/-!
# Which fault of the dependencies is reported

The dependencies from an alias come to an end, come back to an alias that was passed before, or come
to one that is not declared (`Catalog.ends_or_circles_or_breaks`).

The check of a catalog follows the dependencies of the joins in the order of the list and stops at
the first that does not come to an end (`Catalog.FirstEndless`). An alias that is not declared is
recognized one step ahead only. If it is met further on, the join is reported as part of a circle
although there is none, and whether that happens hangs on the order of the list
(`Catalog.dependency_faults`).
-/

namespace SalesQuery.Catalog

open Relation (ReflTransGen TransGen)

variable {c : Catalog} {a b d : String}

/-! ## Where dependencies lead -/

/-- The join of an alias depends on another alias. -/
def DependsOn (c : Catalog) (a b : String) : Prop := ∃ j, c.join? a = some j ∧ j.dependsOn = some b

/-- Following the dependencies from an alias comes to an end. -/
def Ends (c : Catalog) (a : String) : Prop := ∃ path, DependencyPath c.joins a path

/-- Following the dependencies from an alias comes back to an alias that it has passed. -/
def Circles (c : Catalog) (a : String) : Prop :=
  ∃ b, ReflTransGen c.DependsOn a b ∧ TransGen c.DependsOn b b

/-- Following the dependencies from an alias comes to one that is not declared. -/
def Breaks (c : Catalog) (a : String) : Prop := ∃ b, ReflTransGen c.DependsOn a b ∧ b ∉ c.aliases

/-- An alias is declared exactly if a join is found under it. -/
theorem isSome_join?_iff : (c.join? a).isSome ↔ a ∈ c.aliases := by
  simp [join?, aliases]

/-- An alias depends on one other alias at most. -/
theorem DependsOn.unique (h : c.DependsOn a b) (h' : c.DependsOn a d) : b = d := by
  obtain ⟨j, hj, hb⟩ := h
  obtain ⟨k, hk, hd⟩ := h'
  obtain rfl := Option.some.inj (hj.symm.trans hk)
  exact Option.some.inj (hb.symm.trans hd)

/-- Only a declared alias depends on another. -/
theorem DependsOn.declared (h : c.DependsOn a b) : a ∈ c.aliases := by
  obtain ⟨j, hj, -⟩ := h
  exact isSome_join?_iff.mp (by rw [hj]; rfl)

/-- The dependencies from an alias end exactly if they do from the one that it depends on. -/
theorem DependsOn.ends_iff (h : c.DependsOn a b) : c.Ends a ↔ c.Ends b := by
  obtain ⟨j, hj, hb⟩ := h
  constructor
  · rintro ⟨path, hpath⟩
    cases hpath with
    | last hfound hlast =>
      obtain rfl := Option.some.inj (hj.symm.trans hfound)
      rw [hlast] at hb
      contradiction
    | next hfound hnext hrest =>
      obtain rfl := Option.some.inj (hj.symm.trans hfound)
      obtain rfl := Option.some.inj (hb.symm.trans hnext)
      exact ⟨_, hrest⟩
  · rintro ⟨path, hpath⟩
    exact ⟨_, .next hj hb hpath⟩

/-- If the dependencies from an alias end, they do from every alias that they come to. -/
theorem Ends.of_reaches (h : c.Ends a) (hreach : ReflTransGen c.DependsOn a b) : c.Ends b := by
  induction hreach with
  | refl => exact h
  | tail _ hstep ih => exact hstep.ends_iff.mp ih

/-- An alias from which the dependencies end is declared. -/
theorem Ends.declared (h : c.Ends a) : a ∈ c.aliases := by
  obtain ⟨path, hpath⟩ := h
  cases hpath with
  | last hfound _ => exact isSome_join?_iff.mp (by rw [join?, hfound]; rfl)
  | next hfound _ _ => exact isSome_join?_iff.mp (by rw [join?, hfound]; rfl)

/-- Dependencies that end come to declared aliases only. -/
theorem Ends.not_breaks (h : c.Ends a) : ¬ c.Breaks a :=
  fun ⟨_, hreach, hb⟩ => hb (h.of_reaches hreach).declared

/-- Dependencies that come back to an alias come back to it from every alias that they pass. -/
theorem reaches_of_circle (hreach : ReflTransGen c.DependsOn a b)
    (hcircle : TransGen c.DependsOn b b) (hd : ReflTransGen c.DependsOn a d) :
    ReflTransGen c.DependsOn d b := by
  induction hd with
  | refl => exact hreach
  | @tail d e _ hstep ih =>
    obtain ⟨e', hstep', hback⟩ : ∃ e, c.DependsOn d e ∧ ReflTransGen c.DependsOn e b := by
      rcases ih.cases_head with rfl | h
      · exact TransGen.head'_iff.mp hcircle
      · exact h
    rwa [hstep.unique hstep']

/-- Dependencies that come back to an alias come to declared aliases only. -/
theorem Circles.not_breaks (h : c.Circles a) : ¬ c.Breaks a := by
  rintro ⟨d, hd, hundeclared⟩
  obtain ⟨b, hreach, hcircle⟩ := h
  -- An alias that is not declared depends on nothing, so it would be the one of the circle.
  rcases (reaches_of_circle hreach hcircle hd).cases_head with rfl | ⟨e, hstep, -⟩
  · obtain ⟨e, hstep, -⟩ := TransGen.head'_iff.mp hcircle
    exact hundeclared hstep.declared
  · exact hundeclared hstep.declared

/-- Following the dependencies from an alias comes to an end, back to an alias, or to one that is
not declared. -/
theorem ends_or_circles_or_breaks (c : Catalog) (a : String) :
    c.Ends a ∨ c.Circles a ∨ c.Breaks a := by
  by_contra hnone
  simp only [not_or] at hnone
  obtain ⟨hends, hcircles, hbreaks⟩ := hnone
  have hdeclared (b : String) (hb : ReflTransGen c.DependsOn a b) : b ∈ c.aliases := by
    by_contra h
    exact hbreaks ⟨b, hb, h⟩
  -- The aliases that are passed are finitely many and none comes after itself, so there is a last.
  let Passed := {b // ReflTransGen c.DependsOn a b}
  have hfinite : Finite Passed := (c.aliases.finite_toSet.subset hdeclared).to_subtype
  let After (x y : Passed) : Prop := TransGen c.DependsOn y.1 x.1
  have htrans : IsTrans Passed After := ⟨fun _ _ _ hxy hyz => hyz.trans hxy⟩
  have hirrefl : Std.Irrefl After := ⟨fun x hx => hcircles ⟨x.1, x.2, hx⟩⟩
  have hall (x : Passed) : c.Ends x.1 := by
    induction x using (Finite.wellFounded_of_trans_of_irrefl After).induction with
    | _ x ih =>
      obtain ⟨b, hb⟩ := x
      obtain ⟨j, hj⟩ := Option.isSome_iff_exists.mp (isSome_join?_iff.mpr (hdeclared b hb))
      cases hnext : j.dependsOn with
      | none => exact ⟨_, .last hj hnext⟩
      | some parent =>
        have hstep : c.DependsOn b parent := ⟨j, hj, hnext⟩
        exact hstep.ends_iff.mpr (ih ⟨parent, hb.tail hstep⟩ (.single hstep))
  exact hends (hall ⟨a, .refl⟩)

/-! ## What is reported -/

/-- A join depends on an alias that is not declared. -/
def Dangles (c : Catalog) (j : Join) : Prop := ∃ parent ∈ j.dependsOn, parent ∉ c.aliases

/-- The join is the first, in the order of the list, whose dependencies do not come to an end. -/
def FirstEndless (c : Catalog) (j : Join) : Prop :=
  ∃ before after, c.joins = before ++ j :: after ∧ (∀ k ∈ before, c.Ends k.aliasName) ∧
    ¬ c.Ends j.aliasName

/-- The dependencies of the first endless join do not come to an end. -/
theorem FirstEndless.not_ends {j : Join} (h : c.FirstEndless j) : ¬ c.Ends j.aliasName := by
  obtain ⟨_, _, -, -, hendless⟩ := h
  exact hendless

/-- The check of a catalog reports circles and missing joins where they are. -/
structure NamesRealFault (c : Catalog) : Prop where
  /-- A circle is reported for an alias only if the dependencies from it come back to an alias. -/
  cycle : ∀ a, c.check = .error (.cycle a) → c.Circles a
  /-- If no dependencies come back to an alias, but some are on an alias that is not declared, then
  a join that has such a dependency is reported, with the dependency. -/
  unknownJoin : (∀ j ∈ c.joins, ¬ c.Circles j.aliasName) → (∃ j ∈ c.joins, c.Dangles j) →
    ∃ j ∈ c.joins, ∃ parent ∈ j.dependsOn, parent ∉ c.aliases ∧
      c.check = .error (.unknownJoin j.aliasName parent)

section Report

variable {j : Join}

/-- The joins that reach an alias other than that of the base table are found exactly if its
dependencies end. -/
theorem isNone_joinChain?_iff (hbase : a ≠ baseAlias) :
    (c.joinChain? a).isNone ↔ ¬ c.Ends a := by
  rw [Option.isNone_iff_eq_none, Ends, ← not_iff_not, not_not, ← Ne, Option.ne_none_iff_exists']
  simp only [joinChain?_eq_some_iff hbase]
  exact ⟨fun ⟨chain, h⟩ => ⟨_, h⟩, fun ⟨path, h⟩ => ⟨path.reverse, by rwa [List.reverse_reverse]⟩⟩

/-- What is checked of the dependencies of one join. -/
def checkDependency (c : Catalog) (j : Join) : Except CatalogFault Unit := do
  checkReference (c.joins.map (·.aliasName)) j.aliasName j.dependsOn
  if (c.joinChain? j.aliasName).isNone then throw (.cycle j.aliasName)

/-- The dependencies are checked join by join. -/
theorem checkDependencies_eq (c : Catalog) :
    c.checkDependencies = c.joins.forM c.checkDependency :=
  rfl

/-- A join that depends on an alias that is not declared is reported as such. -/
theorem checkDependency_of_undeclared {parent : String} (hparent : parent ∈ j.dependsOn)
    (hundeclared : parent ∉ c.aliases) :
    c.checkDependency j = .error (.unknownJoin j.aliasName parent) := by
  have hreference : checkReference (c.joins.map (·.aliasName)) j.aliasName j.dependsOn =
      .error (.unknownJoin j.aliasName parent) := by
    rw [Option.mem_def.mp hparent, checkReference]
    exact if_neg hundeclared
  rw [checkDependency, hreference]
  rfl

/-- A join that depends on a declared alias, or on none, is reported as part of a circle exactly if
its dependencies do not end. -/
theorem checkDependency_of_not_dangles (hbase : j.aliasName ≠ baseAlias) (h : ¬ c.Dangles j) :
    (c.Ends j.aliasName → c.checkDependency j = .ok ()) ∧
      (¬ c.Ends j.aliasName → c.checkDependency j = .error (.cycle j.aliasName)) := by
  have hreference :
      checkReference (c.joins.map (·.aliasName)) j.aliasName j.dependsOn = .ok () := by
    refine checkReference_eq_ok.mpr fun parent hparent => ?_
    by_contra hundeclared
    exact h ⟨parent, hparent, hundeclared⟩
  rw [checkDependency, hreference, ← not_not (a := c.Ends j.aliasName),
    ← isNone_joinChain?_iff hbase]
  constructor
  · intro hsome
    show (if _ then _ else _) = _
    rw [if_neg hsome]
    rfl
  · intro hnone
    show (if _ then _ else _) = _
    rw [if_pos (not_not.mp hnone)]
    rfl

/-- A fault that is no circle. -/
def NoCircle (fault : CatalogFault) : Prop := ∀ a, fault ≠ .cycle a

/-- No reference is reported as a circle. -/
theorem faultsOnly_checkReference (aliases : List String) (name : String) (needed : Option String) :
    FaultsOnly NoCircle (checkReference aliases name needed) := by
  cases needed with
  | none => exact .ok ()
  | some aliasName =>
    rw [checkReference]
    split
    · exact .ok ()
    · exact .error (by rintro a ⟨⟩)

/-- No name is reported as a circle. -/
theorem faultsOnly_checkNames (aliases seen : List String) (l : List (String × Option String)) :
    FaultsOnly NoCircle (checkNames aliases seen l) := by
  induction l generalizing seen with
  | nil => exact .ok ()
  | cons entry rest ih =>
    obtain ⟨name, needed⟩ := entry
    rw [checkNames]
    dsimp only
    split
    · exact .error (by rintro a ⟨⟩)
    · exact (faultsOnly_checkReference aliases name needed).bind fun _ _ => ih (name :: seen)

/-- No filter column is reported as a circle. -/
theorem faultsOnly_checkColumns (c : Catalog) : FaultsOnly NoCircle c.checkColumns := by
  refine FaultsOnly.forM fun column _ => ?_
  dsimp only
  split
  · exact .error (by rintro a ⟨⟩)
  · exact faultsOnly_checkReference _ column.name column.join

/-! Aliases that differ from each other and from that of the base table. -/

/-- Such aliases pass their check. -/
theorem checkAliases_of_nodup (h : (baseAlias :: c.aliases).Nodup) :
    checkAliases [] c.joins = .ok () := by
  exact checkAliases_eq_ok.mpr ⟨⟨h.of_cons, by simp⟩, fun _ => ne_baseAlias_of_nodup h⟩

/-- From a join that depends on an alias that is not declared, one step leads there. -/
theorem Dangles.breaks (h : (baseAlias :: c.aliases).Nodup) (hj : j ∈ c.joins)
    (hdangles : c.Dangles j) : c.Breaks j.aliasName := by
  obtain ⟨parent, hparent, hundeclared⟩ := hdangles
  have hfound : c.join? j.aliasName = some j := (find?_name_eq_some_iff h.of_cons).mpr ⟨hj, rfl⟩
  exact ⟨parent, .single ⟨j, hfound, hparent⟩, hundeclared⟩

/-- A join whose dependencies end passes. -/
theorem checkDependency_of_ends (h : (baseAlias :: c.aliases).Nodup) (hj : j ∈ c.joins)
    (hends : c.Ends j.aliasName) : c.checkDependency j = .ok () := by
  have hdeclared : ¬ c.Dangles j := fun hdangles => hends.not_breaks (hdangles.breaks h hj)
  exact (checkDependency_of_not_dangles (ne_baseAlias_of_nodup h hj) hdeclared).1 hends

/-- The joins that come before the first endless one pass, so its fault is that of the catalog. -/
theorem FirstEndless.check_eq (h : (baseAlias :: c.aliases).Nodup) (hj : c.FirstEndless j)
    {fault : CatalogFault} (hfault : c.checkDependency j = .error fault) :
    c.check = .error fault := by
  obtain ⟨before, after, hjoins, hbefore, -⟩ := hj
  have hpass (k : Join) (hk : k ∈ before) : c.checkDependency k = .ok () :=
    checkDependency_of_ends h (by simp [hjoins, hk]) (hbefore k hk)
  have hdependencies : c.checkDependencies = .error fault := by
    rw [checkDependencies_eq, hjoins]
    exact forM_eq_error hpass hfault
  rw [check, checkAliases_of_nodup h, hdependencies]
  rfl

/-- The first endless join is reported for its own dependency if that is not declared, and else as
part of a circle. -/
theorem FirstEndless.check_cases (h : (baseAlias :: c.aliases).Nodup) (hj : c.FirstEndless j) :
    (∀ parent ∈ j.dependsOn, parent ∉ c.aliases →
        c.check = .error (.unknownJoin j.aliasName parent)) ∧
      (¬ c.Dangles j → c.check = .error (.cycle j.aliasName)) := by
  have ⟨before, after, hjoins, _, _⟩ := hj
  have hmem : j ∈ c.joins := by simp [hjoins]
  have hne := ne_baseAlias_of_nodup h hmem
  constructor
  · intro parent hparent hundeclared
    exact hj.check_eq h (checkDependency_of_undeclared hparent hundeclared)
  · intro hdeclared
    exact hj.check_eq h ((checkDependency_of_not_dangles hne hdeclared).2 hj.not_ends)

/-- A catalog with an endless join has a first one. -/
theorem exists_firstEndless (h : ¬ ∀ k ∈ c.joins, c.Ends k.aliasName) :
    ∃ j ∈ c.joins, c.FirstEndless j := by
  obtain ⟨before, j, after, hjoins, hbefore, hendless⟩ := exists_first_of_not_forall h
  exact ⟨j, by simp [hjoins], before, after, hjoins, hbefore, hendless⟩

/-- A circle is reported only if a join is endless. -/
theorem not_forall_ends_of_cycle (h : (baseAlias :: c.aliases).Nodup)
    (hcycle : c.check = .error (.cycle a)) : ¬ ∀ k ∈ c.joins, c.Ends k.aliasName := by
  intro hends
  -- All dependencies pass, and what is checked after them reports no circle.
  have hdependencies : c.checkDependencies = .ok () := by
    rw [checkDependencies_eq]
    exact forM_eq_ok.mpr fun k hk => checkDependency_of_ends h hk (hends k hk)
  have hrest : FaultsOnly NoCircle c.check := by
    rw [check, checkAliases_of_nodup h, hdependencies]
    exact (faultsOnly_checkNames _ _ _).bind fun _ _ => faultsOnly_checkColumns c
  exact hrest _ hcycle a rfl

/-- The report on aliases that differ from each other and from that of the base table is about the
first endless join. An alias that is not declared is named if that join depends on it. If it is met
further on, the join is reported as part of a circle. So the report names the real fault exactly if
the first endless join does not lead to such an alias, or depends on it itself. -/
theorem dependency_faults (h : (baseAlias :: c.aliases).Nodup) :
    (∀ j, c.FirstEndless j →
      (∀ parent ∈ j.dependsOn, parent ∉ c.aliases →
        c.check = .error (.unknownJoin j.aliasName parent)) ∧
      (¬ c.Dangles j → c.check = .error (.cycle j.aliasName))) ∧
    (∀ a, c.check = .error (.cycle a) →
      ∃ j, c.FirstEndless j ∧ j.aliasName = a ∧ ¬ c.Dangles j) ∧
    (c.NamesRealFault ↔ ∀ j, c.FirstEndless j → c.Breaks j.aliasName → c.Dangles j) := by
  have hcycle (a : String) (ha : c.check = .error (.cycle a)) :
      ∃ j, c.FirstEndless j ∧ j.aliasName = a ∧ ¬ c.Dangles j := by
    obtain ⟨j, -, hj⟩ := exists_firstEndless (not_forall_ends_of_cycle h ha)
    obtain ⟨hundeclared, hcircle⟩ := hj.check_cases h
    by_cases hdangles : c.Dangles j
    · obtain ⟨parent, hparent, hnot⟩ := hdangles
      rw [hundeclared parent hparent hnot] at ha
      cases ha
    · rw [hcircle hdangles] at ha
      injection ha with ha
      injection ha with ha
      exact ⟨j, hj, ha, hdangles⟩
  refine ⟨fun j hj => hj.check_cases h, hcycle, ?_⟩
  constructor
  · intro hreal j hj hbreaks
    -- Otherwise a circle would be reported, but dependencies in a circle come to no missing alias.
    by_contra hdangles
    have hcircles : c.Circles j.aliasName := hreal.cycle _ ((hj.check_cases h).2 hdangles)
    exact hcircles.not_breaks hbreaks
  · intro hfirst
    -- What is endless and does not come to a missing alias comes back to an alias.
    refine { cycle := fun a ha => ?_, unknownJoin := fun hcircles hsome => ?_ }
    · obtain ⟨j, hj, rfl, hdangles⟩ := hcycle a ha
      have hbreaks : ¬ c.Breaks j.aliasName := fun hbreaks => hdangles (hfirst j hj hbreaks)
      exact ((c.ends_or_circles_or_breaks j.aliasName).resolve_left hj.not_ends).resolve_right
        hbreaks
    · obtain ⟨k, hk, hdangles⟩ := hsome
      have hendless : ¬ ∀ k ∈ c.joins, c.Ends k.aliasName :=
        fun hends => (hends k hk).not_breaks (hdangles.breaks h hk)
      obtain ⟨j, hmem, hj⟩ := exists_firstEndless hendless
      have hbreaks : c.Breaks j.aliasName :=
        ((c.ends_or_circles_or_breaks j.aliasName).resolve_left hj.not_ends).resolve_left
          (hcircles j hmem)
      obtain ⟨parent, hparent, hundeclared⟩ := hfirst j hj hbreaks
      exact ⟨j, hmem, parent, hparent, hundeclared,
        (hj.check_cases h).1 parent hparent hundeclared⟩

end Report

/-! ## One order of the list and the other -/

/-- A join that depends on an alias that is not declared. -/
def danglingJoin : Join :=
  { table := "tb", aliasName := "b", condition := "on b", dependsOn := some "z" }

/-- A join that depends on the one that depends on an alias that is not declared. -/
def outerJoin : Join :=
  { table := "ta", aliasName := "a", condition := "on a", dependsOn := some "b" }

/-- A catalog of joins only. -/
def ofJoins (joins : List Join) : Catalog :=
  { metrics := [], dimensions := [], filterColumns := [], joins }

/-- If the join with the missing dependency comes first, it is reported with the dependency. -/
theorem dependency_faults_dangling_first :
    (baseAlias :: (ofJoins [danglingJoin, outerJoin]).aliases).Nodup ∧
      (ofJoins [danglingJoin, outerJoin]).check = .error (.unknownJoin "b" "z") ∧
      (ofJoins [danglingJoin, outerJoin]).NamesRealFault := by
  have hnodup : (baseAlias :: (ofJoins [danglingJoin, outerJoin]).aliases).Nodup := by
    decide +kernel
  have hdangles : (ofJoins [danglingJoin, outerJoin]).Dangles danglingJoin :=
    ⟨"z", rfl, by decide +kernel⟩
  have hendless : ¬ (ofJoins [danglingJoin, outerJoin]).Ends danglingJoin.aliasName :=
    fun hends => hends.not_breaks (hdangles.breaks hnodup List.mem_cons_self)
  obtain ⟨hreport, -, hreal⟩ := dependency_faults hnodup
  refine ⟨hnodup, ?_, hreal.mpr ?_⟩
  · exact (hreport danglingJoin ⟨[], [outerJoin], rfl, by simp, hendless⟩).1 "z" rfl
      (by decide +kernel)
  · rintro j ⟨before, after, hjoins, hbefore, -⟩
    cases before with
    | nil =>
      obtain ⟨rfl, -⟩ := List.cons.inj hjoins
      exact fun _ => hdangles
    | cons k before =>
      obtain ⟨rfl, -⟩ := List.cons.inj hjoins
      exact absurd (hbefore _ List.mem_cons_self) hendless

/-- If it comes last, the other join is reported as part of a circle, though no dependencies come
back to an alias. -/
theorem dangling_reported_as_circle :
    (baseAlias :: (ofJoins [outerJoin, danglingJoin]).aliases).Nodup ∧
      (ofJoins [outerJoin, danglingJoin]).check = .error (.cycle "a") ∧
      (∀ a ∈ (ofJoins [outerJoin, danglingJoin]).aliases,
        ¬ (ofJoins [outerJoin, danglingJoin]).Circles a) ∧
      ¬ (ofJoins [outerJoin, danglingJoin]).NamesRealFault := by
  have hcheck : (ofJoins [outerJoin, danglingJoin]).check = .error (.cycle "a") := by
    decide +kernel
  have hundeclared : "z" ∉ (ofJoins [outerJoin, danglingJoin]).aliases := by decide +kernel
  have hinner : (ofJoins [outerJoin, danglingJoin]).DependsOn "b" "z" :=
    ⟨danglingJoin, by decide +kernel, rfl⟩
  have houter : (ofJoins [outerJoin, danglingJoin]).DependsOn "a" "b" :=
    ⟨outerJoin, by decide +kernel, rfl⟩
  have hnone (a : String) (ha : a ∈ (ofJoins [outerJoin, danglingJoin]).aliases) :
      ¬ (ofJoins [outerJoin, danglingJoin]).Circles a := by
    -- Both aliases lead to the one that is not declared.
    have hbreaks : (ofJoins [outerJoin, danglingJoin]).Breaks a := by
      obtain rfl | rfl : a = "a" ∨ a = "b" := by
        simpa [aliases, ofJoins, outerJoin, danglingJoin] using ha
      · exact ⟨"z", (ReflTransGen.single houter).tail hinner, hundeclared⟩
      · exact ⟨"z", .single hinner, hundeclared⟩
    exact fun hcircles => hcircles.not_breaks hbreaks
  refine ⟨by decide +kernel, hcheck, hnone, fun hreal => ?_⟩
  exact hnone "a" (by decide +kernel) (hreal.cycle "a" hcheck)

end SalesQuery.Catalog
