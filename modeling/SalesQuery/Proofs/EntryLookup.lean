import SalesQuery.Catalog.Restaurant
import SalesQuery.Proofs.CatalogConsistency
import SalesQuery.Proofs.FirstEntries

/-!
# Entries found under their own names

A name is looked up as the first entry that has it. Where no two entries share a name, every entry
is found under its own (`find?_name_eq_some_iff`); where some do, the first of them hides the
others, and nobody can tell as long as they say the same (`forall_find?_name_iff`). The checks of a
catalog leave no two metrics, dimensions or joins with one name, and no filter column with that of a
dimension. They do not compare filter columns with each other, so a filter column may be hidden by
an earlier one (`Catalog.entries_found`).
-/

namespace SalesQuery

/-- What a filter on a dimension is about. -/
def Dimension.field (d : Dimension) : FilterField := ⟨d.expression, d.join, d.kind⟩

/-- What a filter on a column is about. -/
def FilterColumn.field (column : FilterColumn) : FilterField :=
  ⟨column.expression, column.join, .any⟩

namespace Catalog

variable {c : Catalog}

/-- Metrics, dimensions and joins are found under their own names, and dimensions are so for
filters, too. -/
structure FindsEntries (c : Catalog) : Prop where
  /-- The name of a metric stands for the metric. -/
  metric : ∀ m ∈ c.metrics, c.metric? m.name = some m
  /-- The name of a dimension stands for the dimension. -/
  dimension : ∀ d ∈ c.dimensions, c.dimension? d.name = some d
  /-- The alias of a join stands for the join. -/
  join : ∀ j ∈ c.joins, c.join? j.aliasName = some j
  /-- A filter under the name of a dimension is about the dimension. -/
  filter : ∀ d ∈ c.dimensions, c.filterField? d.name = some d.field

namespace WellFormed

/-- In a well formed catalog, metrics, dimensions and joins have names of their own. -/
theorem findsEntries (h : c.WellFormed) : c.FindsEntries := by
  have hnames : (c.metrics.map (·.name) ++ c.dimensions.map (·.name)).Nodup := by
    simpa [selectable, Function.comp_def] using h.names_nodup
  obtain ⟨hmetrics, hdimensions, -⟩ := List.nodup_append.mp hnames
  have hdimension : ∀ d ∈ c.dimensions, c.dimension? d.name = some d := fun d hd =>
    (find?_name_eq_some_iff hdimensions).mpr ⟨hd, rfl⟩
  refine {
    metric := fun m hm => (find?_name_eq_some_iff hmetrics).mpr ⟨hm, rfl⟩
    dimension := hdimension
    join := fun j hj => (find?_name_eq_some_iff h.aliases_nodup).mpr ⟨hj, rfl⟩
    filter := fun d hd => ?_ }
  rw [filterField?, hdimension d hd]
  rfl

/-- In a well formed catalog, a filter under the name of a column is about the column that is found
under it, since no dimension has the name. -/
theorem filterField?_column (h : c.WellFormed) {column : FilterColumn}
    (hcolumn : column ∈ c.filterColumns) :
    c.filterField? column.name =
      (c.filterColumns.find? fun other => other.name = column.name).map FilterColumn.field := by
  rw [filterField?, h.column_new column hcolumn]
  rfl

end WellFormed

/-- Every metric, dimension and join of a consistent catalog is found under its own name. The name
of a filter column stands for the first column that has it, so all columns are found under their
names exactly if those that share one say the same. -/
theorem entries_found (hc : c.Consistent) :
    c.FindsEntries ∧
      (∀ column ∈ c.filterColumns, ∃ before first after,
        c.filterColumns = before ++ first :: after ∧ first.name = column.name ∧
          (∀ other ∈ before, other.name ≠ column.name) ∧
          c.filterField? column.name = some first.field) ∧
      ((∀ column ∈ c.filterColumns, c.filterField? column.name = some column.field) ↔
        ∀ column ∈ c.filterColumns, ∀ other ∈ c.filterColumns, column.name = other.name →
          column.field = other.field) := by
  have hwell := consistent_iff.mp hc
  refine ⟨hwell.findsEntries, fun column hcolumn => ?_, ?_⟩
  · obtain ⟨before, first, after, hl, hname, hbefore, hfirst⟩ :=
      find?_name_of_mem FilterColumn.name hcolumn
    refine ⟨before, first, after, hl, hname, hbefore, ?_⟩
    rw [hwell.filterField?_column hcolumn, hfirst]
    rfl
  · rw [← forall_find?_name_iff FilterColumn.name]
    exact forall₂_congr fun column hcolumn => by rw [hwell.filterField?_column hcolumn]

/-- The entries of the restaurant catalog, and all its filter columns, are found under their
names. -/
theorem entries_found_restaurant :
    restaurant.Consistent ∧ restaurant.FindsEntries ∧
      ∀ column ∈ restaurant.filterColumns,
        restaurant.filterField? column.name = some column.field := by
  have hc : restaurant.Consistent := by
    unfold Consistent
    decide +kernel
  obtain ⟨hentries, -, hcolumns⟩ := entries_found hc
  exact ⟨hc, hentries, hcolumns.mpr (by decide +kernel)⟩

/-- A catalog with two filter columns of one name. -/
def twoTotals : Catalog where
  metrics := []
  dimensions := []
  filterColumns := [{ name := "total", expression := "s.total_amount" },
    { name := "total", expression := "s.total_discount" }]
  joins := []

/-- Two filter columns of one name pass the checks, though two metrics, dimensions or joins would
not. Then a filter under the name of the second column is about the first one, so not every column
is found under its own name. -/
theorem column_hidden :
    twoTotals.Consistent ∧
      twoTotals.filterField? "total" = some ⟨"s.total_amount", none, .any⟩ ∧
      ¬ ∀ column ∈ twoTotals.filterColumns,
        twoTotals.filterField? column.name = some column.field := by
  unfold Consistent
  decide +kernel

end Catalog

end SalesQuery
