import SalesQuery.Catalog.Restaurant
import SalesQuery.Report.Aggregate
import SalesQuery.Report.Listing
import SalesQuery.Proofs.AggregateWhitelist
import SalesQuery.Proofs.Resolution
import SalesQuery.Proofs.StatementText

/-!
# Placeholders and parameters

A value reaches the database as the parameter whose number its placeholder has, so a wrong number
compares a column with another column's value. The three kinds of statements are aligned
(`CompiledQuery.Aligned`) with the values that they are made for: queries over a catalog without
dollar signs, the aggregates of reports, and listings. For a query it has to be known that the texts
of a request which reach the SQL, its custom aggregates and the columns that it is ordered by, bring
no dollar sign along.
-/

namespace SalesQuery

open Aggregate

/-- A catalog without dollar signs. -/
def Catalog.DollarFree (c : Catalog) : Prop := ∀ t ∈ c.texts, SalesQuery.DollarFree t

instance (c : Catalog) : Decidable c.DollarFree :=
  inferInstanceAs (Decidable (∀ t ∈ c.texts, SalesQuery.DollarFree t))

/-- The parts of the day are written without dollar signs. -/
theorem Catalog.dollarFree_dayPart : SalesQuery.DollarFree dayPart := by
  -- Literals are taken as lists of characters; to decode the text would be slow.
  delta dayPart
  simp only [-String.reduceAppend, dollarFree_append]
  repeat' apply And.intro
  all_goals exact dollarFree_ofList (by decide +kernel)

/-- The restaurant catalog has no dollar signs. -/
theorem Catalog.dollarFree_restaurant : restaurant.DollarFree := by
  simp only [-String.reduceAppend, Catalog.DollarFree, texts, restaurant, restaurantMetrics,
    restaurantDimensions, restaurantColumns, restaurantJoins, Join.texts, FanOut.texts,
    List.flatMap_cons, List.flatMap_nil, List.forall_mem_append, List.forall_mem_cons,
    List.not_mem_nil, false_imp_iff, forall_const, and_true, Option.map_none, Option.map_some,
    Option.getD_none, Option.getD_some, dollarFree_append, dollarFree_dayPart]
  delta saleDate
  repeat' apply And.intro
  all_goals exact dollarFree_ofList (by decide +kernel)

/-! ## Queries -/

/-- No name has a dollar sign. -/
theorem Aggregate.Alphabet.IsName.dollar_notMem {l : List Char} (h : unicode.IsName l) :
    '$' ∉ l := by
  intro hmem
  exact absurd (h.forall_continuesName '$' hmem) (by decide)

/-- A custom aggregate has no dollar sign, nor has the name of its column. -/
theorem CustomAggregate.WrittenIn.dollarFree {c : Catalog} {a : CustomAggregate}
    (h : a.WrittenIn unicode c) : DollarFree a.text ∧ DollarFree a.aliasName := by
  obtain ⟨p, hp⟩ := h
  have hchars : ∀ ch ∈ p.chars, ch ≠ '$' := by
    refine hp.writes.forall_chars (by decide) (fun ch hch => ?_) fun ch hch => ?_
    · rintro rfl
      exact absurd hch (by decide)
    · rintro rfl
      exact absurd hch (by decide)
  constructor
  · rw [DollarFree, hp.text]
    exact fun hmem => hchars '$' hmem rfl
  · rw [DollarFree, hp.aliasName, String.toList_ofList]
    exact hp.writes.aliasName.dollar_notMem

variable {c : Catalog} {maxLimit : Int} {r : QueryRequest} {q : ResolvedQuery}

/-- The name of a dimension that the catalog has is a text of the catalog. -/
theorem Catalog.mem_texts_of_dimension {name : String} (h : (c.dimension? name).isSome) :
    name ∈ c.texts := by
  obtain ⟨d, hd⟩ := Option.isSome_iff_exists.mp h
  rw [Catalog.dimension?] at hd
  obtain rfl : d.name = name := by simpa using List.find?_some hd
  exact (mem_texts_of_mem_dimensions (List.mem_of_find?_eq_some hd)).1

/-- The name of a metric that the catalog has is a text of the catalog. -/
theorem Catalog.mem_texts_of_metric {name : String} (h : (c.metric? name).isSome) :
    name ∈ c.texts := by
  obtain ⟨m, hm⟩ := Option.isSome_iff_exists.mp h
  rw [Catalog.metric?] at hm
  obtain rfl : m.name = name := by simpa using List.find?_some hm
  exact (mem_texts_of_mem_metrics (List.mem_of_find?_eq_some hm)).1

/-- The texts that a resolved query brings along have no dollar sign if those of the catalog have
none. -/
theorem QueryRequest.Resolves.dollarFree_texts (h : r.Resolves c maxLimit q)
    (hfree : c.DollarFree) : ∀ t ∈ q.texts, DollarFree t := by
  intro t ht
  rcases List.mem_append.mp ht with ht | ht
  · obtain ⟨m, hm, htext⟩ := List.mem_filterMap.mp ht
    obtain ⟨token, _, htoken⟩ := h.metric_token hm
    -- Metrics of the catalog bring no text along; custom ones passed the grammar.
    obtain ⟨rfl, _⟩ | ⟨a, rfl, _, hwritten⟩ := resolveMetric_eq_ok htoken
    · contradiction
    · obtain rfl := Option.some.inj htext
      exact hwritten.dollarFree.1
  · obtain ⟨term, hterm, rfl⟩ := List.mem_map.mp ht
    rcases List.mem_append.mp (h.order_field hterm) with hfield | hfield
    · exact hfree _ (Catalog.mem_texts_of_dimension (h.dimension_known hfield))
    · obtain ⟨m, hm, hname⟩ := List.mem_map.mp hfield
      rw [← hname]
      obtain ⟨token, _, htoken⟩ := h.metric_token hm
      obtain ⟨rfl, hmetric⟩ | ⟨a, rfl, _, hwritten⟩ := resolveMetric_eq_ok htoken
      · exact hfree _ (Catalog.mem_texts_of_metric hmetric)
      · exact hwritten.dollarFree.2

/-- A query that was resolved and compiled over a catalog without dollar signs is aligned with its
values. -/
theorem QueryRequest.Resolves.aligned (h : r.Resolves c maxLimit q) (hfree : c.DollarFree)
    {out : CompiledQuery} (hout : q.compile c = .ok out) : out.Aligned q.values := by
  obtain ⟨s, hs, rfl⟩ := ResolvedQuery.compile_eq_ok.mp hout
  rw [← hs.values]
  refine Statement.aligned fun t ht => ?_
  rcases hs.mem_texts ht with ht | ht | rfl | rfl
  · exact hfree t ht
  · exact h.dollarFree_texts hfree t ht
  · decide
  · decide

/-! ## Reports -/

/-- Fragments that may follow any others. -/
def Fragment.Follows (l : List Fragment) : Prop := Spaced l ∧ opensWithDigit l = false

/-- Fragments that may follow any others, in a row, may do so. -/
theorem Fragment.Follows.append {l m : List Fragment} (hl : Follows l) (hm : Follows m) :
    Follows (l ++ m) :=
  ⟨hl.1.append hm.1 hm.2, opensWithDigit_append hl.2 hm.2⟩

/-- A bound on the day of a sale may follow any fragments. -/
theorem follows_boundFragments (op : String) (hop : DollarFree op) (d : Option Date) :
    Fragment.Follows (boundFragments op d) := by
  cases d with
  | none => exact ⟨trivial, rfl⟩
  | some d =>
    have hfree : DollarFree ("\n  AND " ++ saleDate ++ " " ++ op ++ " ") := by
      simp only [dollarFree_append]
      exact ⟨⟨⟨⟨by decide, by decide⟩, by decide⟩, hop⟩, by decide⟩
    refine ⟨⟨hfree, rfl, trivial⟩, ?_⟩
    rw [boundFragments, String.append_assoc, String.append_assoc, String.append_assoc]
    exact Fragment.opensWithDigit_sql_append (by decide) (by decide) _ _

/-- A bound on the day of a sale binds the bound. -/
theorem filterMap_boundFragments (op : String) (d : Option Date) :
    (boundFragments op d).filterMap Fragment.value? = (d.map Scalar.date).toList := by
  cases d <;> rfl

/-- Names are bound as texts. -/
theorem map_bind_text (names : List String) :
    (names.map fun n => [Fragment.bind (.text n)]) =
      (names.map Scalar.text).map fun v => [.bind v] := by
  rw [List.map_map]
  rfl

/-- A restriction to names may follow any fragments. -/
theorem Membership.follows_fragments {m : Membership} (hcolumn : DollarFree m.column)
    (hsubquery : DollarFree m.subquery) (names : List String) :
    Fragment.Follows (m.fragments names) := by
  rw [fragments]
  split
  · exact ⟨trivial, rfl⟩
  · have hfree : DollarFree ("\n  AND " ++ m.column ++ " IN (" ++ m.subquery ++ " IN (") := by
      simp only [dollarFree_append]
      exact ⟨⟨⟨⟨by decide, hcolumn⟩, by decide⟩, hsubquery⟩, by decide⟩
    have hnames : Fragment.Spaced
        (Fragment.separated ", " (names.map fun n => [.bind (.text n)])) := by
      rw [map_bind_text]
      exact Fragment.spaced_separated_bind (by decide) rfl (by decide) _
    refine ⟨⟨hfree, hnames.append ⟨by decide, trivial⟩ rfl⟩, ?_⟩
    rw [String.append_assoc, String.append_assoc, String.append_assoc]
    exact Fragment.opensWithDigit_sql_append (by decide) (by decide) _ _

/-- A restriction to names binds the names. -/
theorem Membership.filterMap_fragments (m : Membership) (names : List String) :
    (m.fragments names).filterMap Fragment.value? = names.map Scalar.text := by
  rw [fragments]
  split
  · rename_i hempty
    rw [List.isEmpty_iff.mp hempty]
    rfl
  · show (Fragment.separated ", " (names.map fun n => [Fragment.bind (.text n)]) ++
      [Fragment.sql "))"]).filterMap Fragment.value? = _
    rw [map_bind_text, List.filterMap_append, Fragment.filterMap_separated_bind]
    exact List.append_nil _

/-- The scalars of a report: the bounds of its days, then its channels, stores and products. -/
def reportValues (range : DateRange) (filters : ReportFilters) : List Scalar :=
  range.values ++ (filters.channels ++ filters.stores ++ filters.products).map Scalar.text

/-- The conditions of a report after the one that restricts it to completed sales. -/
def reportConditions (range : DateRange) (filters : ReportFilters) : List Fragment :=
  boundFragments ">=" range.start ++ boundFragments "<=" range.stop ++
    channelMembership.fragments filters.channels ++ storeMembership.fragments filters.stores ++
    productMembership.fragments filters.products

/-- The conditions of a report may follow any fragments. -/
theorem follows_reportConditions (range : DateRange) (filters : ReportFilters) :
    Fragment.Follows (reportConditions range filters) :=
  ((((follows_boundFragments ">=" (by decide) range.start).append
    (follows_boundFragments "<=" (by decide) range.stop)).append
    (channelMembership.follows_fragments (by decide) (by decide) filters.channels)).append
    (storeMembership.follows_fragments (by decide) (by decide) filters.stores)).append
    (productMembership.follows_fragments (by decide) (by decide) filters.products)

/-- The conditions of a report bind its scalars. -/
theorem filterMap_reportConditions (range : DateRange) (filters : ReportFilters) :
    (reportConditions range filters).filterMap Fragment.value? = reportValues range filters := by
  simp only [reportConditions, List.filterMap_append, filterMap_boundFragments,
    Membership.filterMap_fragments, reportValues, DateRange.values, List.map_append,
    List.append_assoc]

/-- The columns of a report have no dollar sign. -/
theorem dollarFree_aggregateSelect : DollarFree aggregateSelect := by
  delta aggregateSelect
  simp only [-String.reduceAppend, dollarFree_append]
  repeat' apply And.intro
  all_goals exact dollarFree_ofList (by decide)

/-- The statement of a report is aligned with its scalars. -/
theorem aligned_aggregateQuery (range : DateRange) (filters : ReportFilters) :
    (aggregateQuery range filters).Aligned (reportValues range filters) := by
  have hhead : DollarFree (aggregateSelect ++ "\nFROM sales s\nWHERE " ++ basePredicate) :=
    dollarFree_append.mpr
      ⟨dollarFree_append.mpr ⟨dollarFree_aggregateSelect, by decide⟩, by decide⟩
  rw [← filterMap_reportConditions]
  exact CompiledQuery.aligned_ofFragments ⟨hhead, (follows_reportConditions range filters).1⟩

/-! ## Listings -/

/-- The scalars of a listing: the limit of the products, none for the others. -/
def Listing.values (l : Listing) (limit : Option Int) : List Scalar :=
  match l with
  | .products => [.int (limit.getD defaultProductLimit)]
  | _ => []

/-- The statements of listings have no dollar sign before their placeholder. -/
theorem Listing.dollarFree_sql :
    DollarFree storesSql ∧ DollarFree channelsSql ∧ DollarFree productsSql ∧
      DollarFree regionsSql := by
  delta storesSql channelsSql productsSql regionsSql
  simp only [-String.reduceAppend, dollarFree_append]
  repeat' apply And.intro
  all_goals exact dollarFree_ofList (by decide)

/-- The statement of a listing is aligned with its scalars. -/
theorem Listing.aligned_query {l : Listing} {limit : Option Int} {out : CompiledQuery}
    (h : l.query limit = .ok out) : out.Aligned (l.values limit) := by
  obtain ⟨hstores, hchannels, hproducts, hregions⟩ := dollarFree_sql
  cases l with
  | stores =>
    obtain rfl := Except.ok.inj h
    exact CompiledQuery.aligned_ofFragments ⟨hstores, trivial⟩
  | channels =>
    obtain rfl := Except.ok.inj h
    exact CompiledQuery.aligned_ofFragments ⟨hchannels, trivial⟩
  | regions =>
    obtain rfl := Except.ok.inj h
    exact CompiledQuery.aligned_ofFragments ⟨hregions, trivial⟩
  | products =>
    rw [query] at h
    split at h
    · obtain rfl := Except.ok.inj h
      exact CompiledQuery.aligned_ofFragments ⟨hproducts, rfl, trivial⟩
    · cases h

/-! ## All statements -/

/-- Over a catalog without dollar signs, the placeholders of every statement, of a query as of a
report or a listing, are numbered from one in the order of the text, and their parameters are the
values in the order that they are given in. -/
theorem placeholders_aligned (hfree : c.DollarFree) :
    (∀ (maxLimit : Int) (r : QueryRequest) (q : ResolvedQuery) (out : CompiledQuery),
        r.resolve c maxLimit = .ok q → q.compile c = .ok out → out.Aligned q.values) ∧
      (∀ (range : DateRange) (filters : ReportFilters),
        (aggregateQuery range filters).Aligned (reportValues range filters)) ∧
      ∀ (l : Listing) (limit : Option Int) (out : CompiledQuery),
        l.query limit = .ok out → out.Aligned (l.values limit) :=
  ⟨fun _ _ _ _ hq hout => (resolve_eq_ok.mp hq).aligned hfree hout, aligned_aggregateQuery,
    fun _ _ _ hout => Listing.aligned_query hout⟩

/-- A request for the sales of two products by store, over one channel and from a day on. -/
def salesByStore : QueryRequest where
  metrics := ["faturamento", " COUNT(DISTINCT s.id) AS vendas"]
  dimensions := ["store"]
  filters := .ofList [("produto", .list [.string "Pizza", .string "Suco"]),
    ("channel", .scalar (.string "iFood"))]
  dateRange := some ⟨some ⟨2024, 1, 31, by decide⟩, none⟩
  orderBy := some [⟨"Vendas", none⟩]
  limit := some 10

/-- The request for the sales by store, resolved. -/
def salesByStoreQuery : ResolvedQuery where
  dimensions := ["store"]
  metrics := [.catalog "faturamento",
    .custom ⟨"COUNT(DISTINCT s.id) AS vendas", "vendas", some "s"⟩]
  filters := [⟨"channel", .equals (.text "iFood")⟩,
    ⟨"produto", .oneOf [.text "Pizza", .text "Suco"]⟩]
  dateRange := some ⟨some ⟨2024, 1, 31, by decide⟩, none⟩
  orderBy := [⟨"vendas", .desc⟩]
  limit := some 10
  offset := none

/-- The placeholders of the sales by store, where the list of products stands in a semi-join, and
that of a listing of products. -/
theorem placeholders_aligned_restaurant :
    (⟨"SELECT st.name AS store, SUM(s.total_amount) AS faturamento, " ++
          "COUNT(DISTINCT s.id) AS vendas\nFROM sales s\nJOIN stores st ON s.store_id = st.id\n" ++
          "JOIN channels ch ON s.channel_id = ch.id\nWHERE s.sale_status_desc = 'COMPLETED' " ++
          "AND DATE(s.created_at) >= $1 AND ch.name = $2 AND s.id IN (SELECT ps.sale_id " ++
          "FROM product_sales ps JOIN products p ON ps.product_id = p.id " ++
          "WHERE p.name IN ($3, $4))\nGROUP BY 1\nORDER BY vendas DESC\nLIMIT 10",
        [.date ⟨2024, 1, 31, by decide⟩, .text "iFood", .text "Pizza", .text "Suco"]⟩ :
      CompiledQuery).Aligned
        [.date ⟨2024, 1, 31, by decide⟩, .text "iFood", .text "Pizza", .text "Suco"] ∧
      (CompiledQuery.ofFragments [.sql Listing.productsSql, .bind (.int 5)]).Aligned [.int 5] := by
  have haligned := placeholders_aligned Catalog.dollarFree_restaurant
  have hresolve : salesByStore.resolve Catalog.restaurant 1000 = .ok salesByStoreQuery := by
    decide +kernel
  exact ⟨haligned.1 1000 salesByStore salesByStoreQuery _ hresolve (by decide +kernel),
    haligned.2.2 .products (some 5) _ rfl⟩

end SalesQuery
