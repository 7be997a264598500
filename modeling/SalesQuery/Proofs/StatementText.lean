import SalesQuery.Proofs.FilterPlacement
import SalesQuery.Proofs.FragmentText

/-!
# What stands in a compiled statement

Two inventories of a statement: the texts that it is put together from (`Statement.texts`) and the
scalars that it binds. Compiling adds nothing to either. Each text is one of the catalog, a custom
aggregate, a column that the query is ordered by, or one of the two conditions on sales
(`ResolvedQuery.Compiles.mem_texts`), and the scalars are the values of the query in their order
(`ResolvedQuery.Compiles.values`). A statement whose texts have no dollar sign is rendered to spaced
fragments, so its placeholders line up with these values (`Statement.aligned`).
-/

namespace SalesQuery

/-! ## Texts -/

/-- The texts of a key. -/
def FanOut.texts (key : FanOut) : List String := [key.outer, key.inner]

/-- The texts of a join. -/
def Join.texts (j : Join) : List String :=
  [j.table, j.aliasName, j.condition] ++ (j.fanOut.map FanOut.texts).getD []

/-- The texts of a catalog: names, expressions, and what the joins are written with. -/
def Catalog.texts (c : Catalog) : List String :=
  (c.metrics.flatMap fun m => [m.name, m.expression]) ++
    (c.dimensions.flatMap fun d => [d.name, d.expression]) ++
    (c.filterColumns.flatMap fun column => [column.name, column.expression]) ++
    c.joins.flatMap Join.texts

/-- The texts of a column. -/
def SelectItem.texts : SelectItem → List String
  | .aliased expression aliasName => [expression, aliasName]
  | .verbatim text => [text]

/-- The texts of a condition. -/
def Predicate.texts : Predicate → List String
  | .raw sql => [sql]
  | .compare expression _ _ => [expression]
  | .inList expression _ => [expression]
  | .semiJoin key root joins predicate =>
    key.texts ++ root.texts ++ joins.flatMap Join.texts ++ predicate.texts

/-- The texts of a statement. -/
def Statement.texts (s : Statement) : List String :=
  s.columns.flatMap SelectItem.texts ++ s.joins.flatMap Join.texts ++
    s.predicates.flatMap Predicate.texts ++ s.orderBy.map OrderTerm.field

/-- The texts that a resolved query brings along: its custom aggregates, and the columns that it is
ordered by. -/
def ResolvedQuery.texts (q : ResolvedQuery) : List String :=
  (q.metrics.filterMap fun
    | .custom aggregate => some aggregate.text
    | .catalog _ => none) ++ q.orderBy.map OrderTerm.field

variable {c : Catalog} {q : ResolvedQuery} {s : Statement}

/-- The texts of a join of the catalog are texts of the catalog. -/
theorem Catalog.mem_texts_of_mem_joins {j : Join} (hj : j ∈ c.joins) {t : String}
    (ht : t ∈ j.texts) : t ∈ c.texts :=
  List.mem_append_right _ (List.mem_flatMap.mpr ⟨j, hj, ht⟩)

/-- The name and the expression of a metric of the catalog are texts of the catalog. -/
theorem Catalog.mem_texts_of_mem_metrics {m : Metric} (hm : m ∈ c.metrics) :
    m.name ∈ c.texts ∧ m.expression ∈ c.texts := by
  have hsub : ∀ t ∈ [m.name, m.expression], t ∈ c.texts := fun t ht =>
    List.mem_append_left _ (List.mem_append_left _ (List.mem_append_left _
      (List.mem_flatMap.mpr ⟨m, hm, ht⟩)))
  exact ⟨hsub _ (by simp), hsub _ (by simp)⟩

/-- The name and the expression of a dimension of the catalog are texts of the catalog. -/
theorem Catalog.mem_texts_of_mem_dimensions {d : Dimension} (hd : d ∈ c.dimensions) :
    d.name ∈ c.texts ∧ d.expression ∈ c.texts := by
  have hsub : ∀ t ∈ [d.name, d.expression], t ∈ c.texts := fun t ht =>
    List.mem_append_left _ (List.mem_append_left _ (List.mem_append_right _
      (List.mem_flatMap.mpr ⟨d, hd, ht⟩)))
  exact ⟨hsub _ (by simp), hsub _ (by simp)⟩

/-- The expression of a filter column of the catalog is a text of the catalog. -/
theorem Catalog.mem_texts_of_mem_filterColumns {column : FilterColumn}
    (hcolumn : column ∈ c.filterColumns) : column.expression ∈ c.texts :=
  List.mem_append_left _ (List.mem_append_right _
    (List.mem_flatMap.mpr ⟨column, hcolumn, by simp⟩))

/-- The column of a dimension is written with texts of the catalog. -/
theorem Catalog.mem_texts_of_dimensionColumn {name : String} {item : SelectItem}
    (h : c.dimensionColumn? name = some item) {t : String} (ht : t ∈ item.texts) :
    t ∈ c.texts := by
  obtain ⟨d, hd, rfl⟩ := Option.map_eq_some_iff.mp h
  obtain ⟨hname, hexpression⟩ := mem_texts_of_mem_dimensions (List.mem_of_find?_eq_some hd)
  simp only [SelectItem.texts, List.mem_cons, List.not_mem_nil, or_false] at ht
  rcases ht with rfl | rfl
  · exact hexpression
  · exact hname

/-- The column of a metric is written with texts of the catalog, or is a custom aggregate. -/
theorem MetricSelection.mem_texts_of_column {m : MetricSelection} {item : SelectItem}
    (h : m.column? c = some item) {t : String} (ht : t ∈ item.texts) :
    t ∈ c.texts ∨ ∃ aggregate, m = .custom aggregate ∧ t = aggregate.text := by
  cases m with
  | custom aggregate =>
    obtain rfl := Option.some.inj h
    exact .inr ⟨aggregate, rfl, List.mem_singleton.mp ht⟩
  | catalog name =>
    obtain ⟨m, hm, rfl⟩ := Option.map_eq_some_iff.mp h
    obtain ⟨hname, hexpression⟩ :=
      Catalog.mem_texts_of_mem_metrics (List.mem_of_find?_eq_some hm)
    simp only [SelectItem.texts, List.mem_cons, List.not_mem_nil, or_false] at ht
    rcases ht with rfl | rfl
    · exact .inl hexpression
    · exact .inl hname

/-- The expression of a field that may be filtered on is a text of the catalog. -/
theorem Catalog.mem_texts_of_canFilter {field : String} (h : c.CanFilter field) :
    c.filterExpression field ∈ c.texts := by
  obtain ⟨found, hfound, _⟩ := h
  rw [filterExpression, hfound]
  rw [filterField?] at hfound
  split at hfound
  · rename_i d hd
    obtain rfl := Option.some.inj hfound
    exact (mem_texts_of_mem_dimensions (List.mem_of_find?_eq_some hd)).2
  · obtain ⟨column, hcolumn, rfl⟩ := Option.map_eq_some_iff.mp hfound
    exact mem_texts_of_mem_filterColumns (List.mem_of_find?_eq_some hcolumn)

/-- A condition on an expression is written with the expression. -/
theorem ResolvedQuery.texts_conditionPredicate (expression : String) (condition : FilterCondition) :
    (conditionPredicate expression condition).texts = [expression] := by
  cases condition <;> rfl

/-- A placed condition is written with its own texts and those of its chain. -/
theorem JoinPlan.mem_texts_wrap {plan : JoinPlan} {chain : List Join} {predicate : Predicate}
    {t : String} (ht : t ∈ (plan.wrap chain predicate).texts) :
    t ∈ predicate.texts ∨ ∃ j ∈ chain, t ∈ j.texts := by
  rw [wrap] at ht
  split at ht
  · exact .inl ht
  · rename_i before key root rest hsplit
    obtain ⟨hchain, hroot, _⟩ := splitFanOut_eq_some hsplit
    simp only [Predicate.texts, List.mem_append, List.mem_flatMap] at ht
    rcases ht with ((ht | ht) | ⟨j, hj, ht⟩) | ht
    · have hkey : t ∈ root.texts := by
        rw [Join.texts, hroot]
        exact List.mem_append_right _ ht
      exact .inr ⟨root, by simp [hchain], hkey⟩
    · exact .inr ⟨root, by simp [hchain], ht⟩
    · exact .inr ⟨j, by simp [hchain, hj], ht⟩
    · exact .inl ht

/-- A placed filter is written with texts of the catalog. -/
theorem Filter.mem_texts_of_predicate {plan : JoinPlan} {f : Filter} (hcan : c.CanFilter f.field)
    {t : String} (ht : t ∈ (f.predicate c plan).texts) : t ∈ c.texts := by
  rcases JoinPlan.mem_texts_wrap ht with ht | ⟨j, hj, ht⟩
  · rw [ResolvedQuery.texts_conditionPredicate, List.mem_singleton] at ht
    rw [ht]
    exact Catalog.mem_texts_of_canFilter hcan
  · exact Catalog.mem_texts_of_mem_joins (Catalog.has_of_mem_reach hj).mem ht

/-- A statement has joins of the catalog only. -/
theorem ResolvedQuery.Compiles.mem_joins (h : q.Compiles c s) {j : Join} (hj : j ∈ s.joins) :
    j ∈ c.joins := by
  rcases h.mem_joins_iff.mp hj with hj | hj
  · exact (has_of_mem_selectedJoins hj).mem
  · exact (has_of_mem_filterJoins hj).mem

/-- The conditions on the day of a sale are written with its expression. -/
theorem ResolvedQuery.mem_texts_fixedPredicates {p : Predicate} (hp : p ∈ q.fixedPredicates)
    {t : String} (ht : t ∈ p.texts) : t = basePredicate ∨ t = saleDate := by
  rcases List.mem_cons.mp hp with rfl | hp
  · exact .inl (List.mem_singleton.mp ht)
  · cases hrange : q.dateRange with
    | none => simp [hrange] at hp
    | some range =>
      obtain ⟨start, stop⟩ := range
      rw [hrange] at hp
      cases start <;> cases stop <;> simp [rangePredicates] at hp <;> grind [Predicate.texts]

/-- Every text of a statement is one of the catalog, one of the query, or a condition on sales. -/
theorem ResolvedQuery.Compiles.mem_texts (h : q.Compiles c s) {t : String} (ht : t ∈ s.texts) :
    t ∈ c.texts ∨ t ∈ q.texts ∨ t = basePredicate ∨ t = saleDate := by
  obtain ⟨hcan, _, hpredicates⟩ := filters_iff.mp h.filters
  simp only [Statement.texts, List.mem_append, List.mem_flatMap, h.columns, hpredicates,
    h.orderBy] at ht
  rcases ht with ((⟨item, hitem, ht⟩ | ⟨j, hj, ht⟩) | ⟨p, hp, ht⟩) | ht
  · rcases List.mem_append.mp hitem with hitem | hitem
    · obtain ⟨name, _, hcolumn⟩ := List.mem_filterMap.mp hitem
      exact .inl (Catalog.mem_texts_of_dimensionColumn hcolumn ht)
    · obtain ⟨m, hm, hcolumn⟩ := List.mem_filterMap.mp hitem
      rcases MetricSelection.mem_texts_of_column hcolumn ht with ht | ⟨aggregate, rfl, rfl⟩
      · exact .inl ht
      · exact .inr (.inl (List.mem_append_left _ (List.mem_filterMap.mpr ⟨_, hm, rfl⟩)))
  · exact .inl (Catalog.mem_texts_of_mem_joins (h.mem_joins hj) ht)
  · rcases hp with hp | hp
    · exact .inr (.inr (mem_texts_fixedPredicates hp ht))
    · obtain ⟨f, hf, rfl⟩ := List.mem_map.mp hp
      exact .inl (Filter.mem_texts_of_predicate (hcan f hf) ht)
  · exact .inr (.inl (List.mem_append_right _ ht))

/-! ## Values -/

/-- The scalars that a condition binds, in the order of its text. -/
def Predicate.values : Predicate → List Scalar
  | .raw _ => []
  | .compare _ _ value => [value]
  | .inList _ values => values
  | .semiJoin _ _ _ predicate => predicate.values

/-- The scalars of a filter's condition. -/
def FilterCondition.values : FilterCondition → List Scalar
  | .equals value => [value]
  | .oneOf values => values
  | .compare _ value => [value]

/-- The bounds of a range of days, the first day first. -/
def DateRange.values (range : DateRange) : List Scalar :=
  (range.start.map Scalar.date).toList ++ (range.stop.map Scalar.date).toList

/-- The scalars of a query: the bounds of its days, then the values of its filters in order. -/
def ResolvedQuery.values (q : ResolvedQuery) : List Scalar :=
  (q.dateRange.map DateRange.values).getD [] ++ q.filters.flatMap fun f => f.condition.values

/-- The fragments of a condition bind its scalars. -/
theorem Predicate.filterMap_fragments (p : Predicate) :
    p.fragments.filterMap Fragment.value? = p.values := by
  induction p with
  | raw sql => rfl
  | compare expression op value => rfl
  | inList expression values =>
    cases values with
    | nil => rfl
    | cons v rest =>
      show (Fragment.separated ", " ((v :: rest).map fun v => [Fragment.bind v]) ++
        [Fragment.sql ")"]).filterMap Fragment.value? = v :: rest
      rw [List.filterMap_append, Fragment.filterMap_separated_bind]
      exact List.append_nil _
  | semiJoin key root joins predicate ih =>
    show (predicate.fragments ++ [Fragment.sql ")"]).filterMap Fragment.value? = predicate.values
    rw [List.filterMap_append, ih]
    exact List.append_nil _

/-- A statement binds the scalars of its conditions, in order. -/
theorem Statement.filterMap_fragments (s : Statement) :
    s.fragments.filterMap Fragment.value? = s.predicates.flatMap Predicate.values := by
  have hwhere : s.whereClause.filterMap Fragment.value? =
      s.predicates.flatMap Predicate.values := by
    rw [whereClause]
    split
    · rename_i hempty
      rw [List.isEmpty_iff.mp hempty]
      rfl
    · show (Fragment.separated " AND " (s.predicates.map Predicate.fragments)).filterMap
        Fragment.value? = _
      rw [Fragment.filterMap_separated, List.flatMap_map]
      simp only [Predicate.filterMap_fragments]
  show (s.whereClause ++ [Fragment.sql _]).filterMap Fragment.value? = _
  rw [List.filterMap_append, hwhere]
  exact List.append_nil _

/-- A condition on an expression binds the scalars of the condition. -/
theorem ResolvedQuery.values_conditionPredicate (expression : String)
    (condition : FilterCondition) :
    (conditionPredicate expression condition).values = condition.values := by
  cases condition <;> rfl

/-- Placing a condition leaves its scalars as they are. -/
theorem JoinPlan.values_wrap (plan : JoinPlan) (chain : List Join) (predicate : Predicate) :
    (plan.wrap chain predicate).values = predicate.values := by
  rw [wrap]
  split <;> rfl

/-- The conditions of a range of days bind its bounds. -/
theorem ResolvedQuery.values_rangePredicates (range : DateRange) :
    (rangePredicates range).flatMap Predicate.values = range.values := by
  obtain ⟨start, stop⟩ := range
  cases start <;> cases stop <;> rfl

/-- A placed filter binds the scalars of its condition. -/
theorem Filter.values_predicate (plan : JoinPlan) (f : Filter) :
    (f.predicate c plan).values = f.condition.values := by
  rw [predicate, JoinPlan.values_wrap, ResolvedQuery.values_conditionPredicate]

/-- The statement of a query binds the scalars of the query, in order. -/
theorem ResolvedQuery.Compiles.values (h : q.Compiles c s) :
    s.predicates.flatMap Predicate.values = q.values := by
  obtain ⟨_, _, hpredicates⟩ := filters_iff.mp h.filters
  have hfixed : q.fixedPredicates.flatMap Predicate.values =
      (q.dateRange.map DateRange.values).getD [] := by
    rw [fixedPredicates, List.flatMap_cons]
    cases q.dateRange with
    | none => rfl
    | some range => exact values_rangePredicates range
  rw [hpredicates, List.flatMap_append, hfixed, List.flatMap_map]
  simp only [Filter.values_predicate, ResolvedQuery.values]

/-! ## Alignment -/

/-- The SQL of a join has no dollar sign if its texts have none. -/
theorem Join.dollarFree_sql {j : Join} (h : ∀ t ∈ j.texts, DollarFree t) : DollarFree j.sql := by
  have hkind : DollarFree j.kind.keyword := by cases j.kind <;> decide
  simp only [Join.sql, dollarFree_append]
  exact ⟨⟨⟨⟨⟨⟨hkind, by decide⟩, h _ (by simp [texts])⟩, by decide⟩, h _ (by simp [texts])⟩,
    by decide⟩, h _ (by simp [texts])⟩

/-- The SQL of a column has no dollar sign if its texts have none. -/
theorem SelectItem.dollarFree_sql {item : SelectItem} (h : ∀ t ∈ item.texts, DollarFree t) :
    DollarFree item.sql := by
  cases item with
  | verbatim text => exact h text (List.mem_singleton.mpr rfl)
  | aliased expression aliasName =>
    simp only [SelectItem.sql, dollarFree_append]
    exact ⟨⟨h _ (by simp [texts]), by decide⟩, h _ (by simp [texts])⟩

/-- A condition whose texts have no dollar sign is written with spaced fragments. -/
theorem Predicate.spaced_fragments {p : Predicate} (h : ∀ t ∈ p.texts, DollarFree t) :
    Fragment.Spaced p.fragments := by
  induction p with
  | raw sql => exact ⟨h _ (by simp [texts]), trivial⟩
  | compare expression op value =>
    have hop : DollarFree op.sql := by cases op <;> decide
    refine ⟨?_, rfl, trivial⟩
    simp only [dollarFree_append]
    exact ⟨⟨⟨h _ (by simp [texts]), by decide⟩, hop⟩, by decide⟩
  | inList expression values =>
    cases values with
    | nil => exact ⟨by decide, trivial⟩
    | cons v rest =>
      have hlist : Fragment.Spaced
          (Fragment.separated ", " ((v :: rest).map fun v => [Fragment.bind v])) :=
        Fragment.spaced_separated_bind (by decide) rfl (by decide) _
      exact ⟨dollarFree_append.mpr ⟨h _ (by simp [texts]), by decide⟩,
        hlist.append ⟨by decide, trivial⟩ rfl⟩
  | semiJoin key root joins predicate ih =>
    refine ⟨?_, (ih fun t ht => h t (List.mem_append_right _ ht)).append
      ⟨by decide, trivial⟩ rfl⟩
    have hjoins : DollarFree (String.join (joins.map fun j => " " ++ j.sql)) := by
      refine dollarFree_join fun text htext => ?_
      obtain ⟨j, hj, rfl⟩ := List.mem_map.mp htext
      refine dollarFree_append.mpr ⟨by decide, Join.dollarFree_sql fun t ht => h t ?_⟩
      exact List.mem_append_left _ (List.mem_append_right _ (List.mem_flatMap.mpr ⟨j, hj, ht⟩))
    simp only [dollarFree_append]
    exact ⟨⟨⟨⟨⟨⟨⟨⟨h _ (by simp [texts, FanOut.texts]), by decide⟩,
      h _ (by simp [texts, FanOut.texts])⟩, by decide⟩, h _ (by simp [texts, Join.texts])⟩,
      by decide⟩, h _ (by simp [texts, Join.texts])⟩, hjoins⟩, by decide⟩

namespace Statement

/-- The SQL of the columns and tables has no dollar sign if the texts have none. -/
theorem dollarFree_fromClause (h : ∀ t ∈ s.texts, DollarFree t) : DollarFree s.fromClause := by
  have hcolumns : DollarFree (", ".intercalate (s.columns.map SelectItem.sql)) := by
    refine dollarFree_intercalate (by decide) fun text htext => ?_
    obtain ⟨item, hitem, rfl⟩ := List.mem_map.mp htext
    refine SelectItem.dollarFree_sql fun t ht => h t ?_
    simp only [texts, List.mem_append, List.mem_flatMap]
    exact .inl (.inl (.inl ⟨item, hitem, ht⟩))
  have hjoins : DollarFree (String.join (s.joins.map fun j => "\n" ++ j.sql)) := by
    refine dollarFree_join fun text htext => ?_
    obtain ⟨j, hj, rfl⟩ := List.mem_map.mp htext
    refine dollarFree_append.mpr ⟨by decide, Join.dollarFree_sql fun t ht => h t ?_⟩
    simp only [texts, List.mem_append, List.mem_flatMap]
    exact .inl (.inl (.inr ⟨j, hj, ht⟩))
  simp only [fromClause, dollarFree_append]
  exact ⟨⟨⟨⟨⟨⟨by decide, hcolumns⟩, by decide⟩, by decide⟩, by decide⟩, by decide⟩, hjoins⟩

/-- The conditions are written with spaced fragments if the texts have no dollar sign. -/
theorem spaced_whereClause (h : ∀ t ∈ s.texts, DollarFree t) :
    Fragment.Spaced s.whereClause := by
  rw [whereClause]
  split
  · trivial
  · refine ⟨by decide, Fragment.spaced_separated (by decide) rfl (by decide) fun group hgroup => ?_⟩
    obtain ⟨p, hp, rfl⟩ := List.mem_map.mp hgroup
    refine Predicate.spaced_fragments fun t ht => h t ?_
    simp only [texts, List.mem_append, List.mem_flatMap]
    exact .inl (.inr ⟨p, hp, ht⟩)

/-- The clauses after the conditions: grouping, order, limit and offset. -/
def tailClauses (s : Statement) : String :=
  s.groupClause ++ s.orderClause ++ s.limitClause ++ s.offsetClause

/-- The clauses after the conditions have no dollar sign if the texts have none. -/
theorem dollarFree_tailClauses (h : ∀ t ∈ s.texts, DollarFree t) : DollarFree s.tailClauses := by
  have hgroup : DollarFree s.groupClause := by
    rw [groupClause]
    split
    · decide
    · refine dollarFree_append.mpr ⟨by decide, dollarFree_intercalate (by decide) fun t ht => ?_⟩
      obtain ⟨i, _, rfl⟩ := List.mem_map.mp ht
      exact dollarFree_repr (i + 1)
  have horder : DollarFree s.orderClause := by
    rw [orderClause]
    split
    · decide
    · refine dollarFree_append.mpr ⟨by decide, dollarFree_intercalate (by decide) fun t ht => ?_⟩
      obtain ⟨term, hterm, rfl⟩ := List.mem_map.mp ht
      have hdirection : DollarFree term.direction.sql := by cases term.direction <;> decide
      have hfield : term.field ∈ s.texts :=
        List.mem_append_right _ (List.mem_map.mpr ⟨term, hterm, rfl⟩)
      exact dollarFree_append.mpr ⟨dollarFree_append.mpr ⟨h _ hfield, by decide⟩, hdirection⟩
  have hlimit : DollarFree s.limitClause := by
    rw [limitClause]
    split
    · exact dollarFree_append.mpr ⟨by decide, dollarFree_toString_int _⟩
    · decide
  have hoffset : DollarFree s.offsetClause := by
    rw [offsetClause]
    split
    · split
      · exact dollarFree_append.mpr ⟨by decide, dollarFree_toString_int _⟩
      · decide
    · decide
  simp only [tailClauses, dollarFree_append]
  exact ⟨⟨⟨hgroup, horder⟩, hlimit⟩, hoffset⟩

/-- The clauses after the conditions start on a new line, or there are none. -/
theorem startsWithDigit_tailClauses (s : Statement) :
    startsWithDigit s.tailClauses.toList = false := by
  have hgroup : startsWithDigit s.groupClause.toList = false := by
    rw [groupClause]
    split
    · rfl
    · rw [String.toList_append]; rfl
  have horder : startsWithDigit s.orderClause.toList = false := by
    rw [orderClause]
    split
    · rfl
    · rw [String.toList_append]; rfl
  have hlimit : startsWithDigit s.limitClause.toList = false := by
    rw [limitClause]
    split
    · rw [String.toList_append]; rfl
    · rfl
  have hoffset : startsWithDigit s.offsetClause.toList = false := by
    rw [offsetClause]
    split
    · split
      · rw [String.toList_append]; rfl
      · rfl
    · rfl
  rw [tailClauses, String.toList_append, String.toList_append, String.toList_append]
  exact startsWithDigit_append
    (startsWithDigit_append (startsWithDigit_append hgroup horder) hlimit) hoffset

/-- A statement whose texts have no dollar sign is aligned with the scalars of its conditions. -/
theorem aligned (h : ∀ t ∈ s.texts, DollarFree t) :
    s.compiled.Aligned (s.predicates.flatMap Predicate.values) := by
  rw [← s.filterMap_fragments]
  refine CompiledQuery.aligned_ofFragments ⟨dollarFree_fromClause h, ?_⟩
  refine (spaced_whereClause h).append ⟨dollarFree_tailClauses h, trivial⟩ ?_
  rw [Fragment.opensWithDigit_singleton]
  exact s.startsWithDigit_tailClauses

end Statement

end SalesQuery
