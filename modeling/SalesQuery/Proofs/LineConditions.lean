import SalesQuery.Catalog.Restaurant
import SalesQuery.Proofs.DependencyChains
import SalesQuery.Proofs.FilterPlacement
import SalesQuery.Proofs.Resolution
import SalesQuery.Proofs.RowMeaning

/-!
# The conditions of one filter

A map of operators on a field is resolved to one filter for each operator, and each is placed on its
own. If the lines of sales are joined anyway, the conditions meet on one row: a line in the range.
If they are not, each condition goes into a semi-join of its own, and a sale passes that has a line
above the lower end of the range and another one below the upper end, and none in it
(`ResolvedQuery.conditions_apart`). The two readings agree for a single condition, and for sales
with at most one line.
-/

namespace SalesQuery

open ResolvedQuery (conditionPredicate)

/-! ## Two readings of several conditions -/

namespace Database

variable {ρ ν : Type} [DecidableEq ν] {db : Database ρ ν} {expression : String}
  {conditions : List FilterCondition} {rows : List (Scope ρ)}

/-- Each condition is met by some of the rows, not necessarily by the same. -/
def MeetsApart (db : Database ρ ν) (expression : String) (conditions : List FilterCondition)
    (rows : List (Scope ρ)) : Prop :=
  ∀ condition ∈ conditions, ∃ row ∈ rows, (conditionPredicate expression condition).holds db row

/-- One of the rows meets all conditions. -/
def MeetsTogether (db : Database ρ ν) (expression : String) (conditions : List FilterCondition)
    (rows : List (Scope ρ)) : Prop :=
  ∃ row ∈ rows, ∀ condition ∈ conditions, (conditionPredicate expression condition).holds db row

instance : Decidable (db.MeetsTogether expression conditions rows) :=
  inferInstanceAs (Decidable (∃ row ∈ rows, ∀ condition ∈ conditions, _))

/-- One row that meets all conditions meets each of them. -/
theorem MeetsTogether.apart (h : db.MeetsTogether expression conditions rows) :
    db.MeetsApart expression conditions rows := by
  obtain ⟨row, hrow, hall⟩ := h
  exact fun condition hcondition => ⟨row, hrow, hall condition hcondition⟩

/-- The readings agree on a single condition, and on a single row. -/
theorem meetsApart_iff_meetsTogether (hne : conditions ≠ [])
    (h : conditions.length = 1 ∨ rows.length ≤ 1) :
    db.MeetsApart expression conditions rows ↔ db.MeetsTogether expression conditions rows := by
  refine ⟨fun hapart => ?_, MeetsTogether.apart⟩
  rcases h with h | h
  · obtain ⟨condition, rfl⟩ := List.length_eq_one_iff.mp h
    obtain ⟨row, hrow, hholds⟩ := hapart condition (List.mem_singleton_self _)
    exact ⟨row, hrow, fun other hother => List.mem_singleton.mp hother ▸ hholds⟩
  · obtain ⟨condition, hcondition⟩ := List.exists_mem_of_ne_nil _ hne
    obtain ⟨row, hrow, -⟩ := hapart condition hcondition
    refine ⟨row, hrow, fun other hother => ?_⟩
    obtain ⟨row', hrow', hholds⟩ := hapart other hother
    obtain ⟨only, rfl⟩ := List.length_eq_one_iff.mp (le_antisymm h (List.length_pos_of_mem hrow))
    rwa [List.mem_singleton.mp hrow, ← List.mem_singleton.mp hrow']

/-- No condition is met where the expression is NULL. -/
theorem not_holds_of_null {row : Scope ρ} (h : db.value expression row = none)
    (condition : FilterCondition) : ¬ (conditionPredicate expression condition).holds db row := by
  cases condition <;> simp [conditionPredicate, Predicate.holds, h]

/-- The lines of a subquery meet the conditions together exactly if the rows do that its joins make
where they are joined as they stand. -/
theorem meetsTogether_lines_iff {key : FanOut} {root : Join} {rest : List Join} {scope : Scope ρ}
    (hne : conditions ≠ []) (h : root.Restates key db)
    (haliases : ((root :: rest).map (·.aliasName)).Nodup)
    (hnull : root.kind = .left → ∀ row ∈ db.joinAll rest
      (scope.bind root.aliasName (db.absent root.table)), db.value expression row = none) :
    db.MeetsTogether expression conditions (db.lines key root rest scope) ↔
      db.MeetsTogether expression conditions (db.joinAll (root :: rest) scope) := by
  have hother : ∀ j ∈ rest, root.aliasName ≠ j.aliasName := fun j hj heq =>
    (List.nodup_cons.mp haliases).1 (List.mem_map.mpr ⟨j, hj, heq.symm⟩)
  constructor
  · rintro ⟨row, hrow, hall⟩
    exact ⟨row, (mem_joinAll_cons h hother).mpr (.inl hrow), hall⟩
  · rintro ⟨row, hrow, hall⟩
    rcases (mem_joinAll_cons h hother).mp hrow with hrow | ⟨hleft, -, hrow⟩
    · exact ⟨row, hrow, hall⟩
    · -- The row without a line has NULL for the expression, and there is a condition on it.
      obtain ⟨condition, hcondition⟩ := List.exists_mem_of_ne_nil _ hne
      exact absurd (hall condition hcondition) (not_holds_of_null (hnull hleft row hrow) condition)

end Database

/-! ## Where the conditions are placed -/

variable {c : Catalog} {maxLimit : Int} {r : QueryRequest} {q : ResolvedQuery} {s : Statement}
  {field : String} {ops : Dictionary Json.Value}

/-- The filters that an entry of a request stands for stand next to each other. -/
theorem QueryRequest.Resolves.filters_eq (h : r.Resolves c maxLimit q) {input : FilterInput}
    (hfield : (field, input) ∈ r.filters.entries) :
    ∃ target conditions, c.filterField? field = some target ∧
      resolveConditions target.kind input = .ok conditions ∧
      ∃ before after, q.filters = before ++ conditions.map (fun a => ⟨field, a⟩) ++ after := by
  obtain ⟨groups, hgroups, hfilters⟩ := h.filters
  obtain ⟨group, hgroup⟩ := exists_of_mem_of_mapM hgroups hfield
  obtain ⟨before, after, rfl⟩ := List.append_of_mem (mem_of_mapM hgroups hfield hgroup)
  obtain ⟨target, conditions, htarget, hconditions, rfl⟩ := resolveFilter_eq_ok.mp hgroup
  refine ⟨target, conditions, htarget, hconditions, before.flatten, after.flatten, ?_⟩
  rw [hfilters, List.flatten_append, List.flatten_cons, List.append_assoc]

/-- A map of operators has a condition for each operator, and there is one at least. -/
theorem resolveConditions_operators {kind : ValueKind} {conditions : List FilterCondition}
    (h : resolveConditions kind (.operators ops) = .ok conditions) :
    ops.entries.mapM (fun o => resolveOperator kind o.1 o.2) = .ok conditions ∧
      conditions.length = ops.entries.length ∧ conditions ≠ [] := by
  rw [resolveConditions] at h
  split at h
  · contradiction
  · rename_i hne
    have hlength := (mapM_eq_ok.mp h).length_eq
    refine ⟨h, hlength.symm, ?_⟩
    rintro rfl
    exact hne (List.isEmpty_iff_length_eq_zero.mpr hlength)

/-- A chain is split at a join of many rows that is not selected, if it has one. -/
theorem exists_splitFanOut
    (h : ∃ j ∈ c.filterChain field, j.fanOut.isSome ∧ j ∉ q.selectedJoins c) :
    ∃ direct key root rest,
      (q.selectedPlan c).splitFanOut (c.filterChain field) = some (direct, key, root, rest) := by
  obtain ⟨j, hj, hfan, hnew⟩ := h
  cases hsplit : (q.selectedPlan c).splitFanOut (c.filterChain field) with
  | some split => exact ⟨_, _, _, _, rfl⟩
  | none =>
    have hjoined := JoinPlan.splitFanOut_eq_none.mp hsplit j hj hfan
    rw [JoinPlan.joins_iff_mem (fun _ => ResolvedQuery.has_of_mem_selectedPlan)
      (Catalog.has_of_mem_reach hj), ResolvedQuery.mem_selectedPlan] at hjoined
    exact absurd hjoined hnew

namespace ResolvedQuery

/-- How the conditions on a field stand in a statement: each in a semi-join of its own, all over the
same part of the field's chain. -/
structure PlacedApart (c : Catalog) (q : ResolvedQuery) (s : Statement) (field : String)
    (conditions : List FilterCondition) (key : FanOut) (root : Join) (rest : List Join)
    (before after : List Predicate) : Prop where
  /-- The subqueries have the end of the chain. -/
  chain : ∃ direct, c.filterChain field = direct ++ root :: rest
  /-- They are tied to the sale by the key of their first table. -/
  key_eq : root.fanOut = some key
  /-- That table is not selected from. -/
  unselected : root ∉ q.selectedJoins c
  /-- There is one for each condition, between the other conditions of the statement. -/
  predicates : s.predicates = before ++ conditions.map (fun condition => .semiJoin key root rest
    (conditionPredicate (c.filterExpression field) condition)) ++ after

/-- Filters on one field whose chain is split are placed apart. -/
theorem Compiles.placedApart (hs : q.Compiles c s) {conditions : List FilterCondition}
    {first last : List Filter}
    (hfilters : q.filters = first ++ conditions.map (fun a => ⟨field, a⟩) ++ last)
    {direct : List Join} {key : FanOut} {root : Join} {rest : List Join}
    (hsplit : (q.selectedPlan c).splitFanOut (c.filterChain field) =
      some (direct, key, root, rest)) :
    ∃ before after, PlacedApart c q s field conditions key root rest before after := by
  obtain ⟨hchain, hkey, hnew, -⟩ := JoinPlan.splitFanOut_eq_some hsplit
  have hroot : c.Has root := Catalog.has_of_mem_reach
    (hchain ▸ List.mem_append_right _ List.mem_cons_self)
  have hwrap : ∀ a : FilterCondition,
      Filter.predicate c (q.selectedPlan c) ⟨field, a⟩ =
        .semiJoin key root rest (conditionPredicate (c.filterExpression field) a) := by
    intro a
    rw [Filter.predicate, JoinPlan.wrap, hsplit]
  refine ⟨q.fixedPredicates ++ first.map (Filter.predicate c (q.selectedPlan c)),
    last.map (Filter.predicate c (q.selectedPlan c)), ⟨direct, hchain⟩, hkey, ?_, ?_⟩
  · rw [← mem_selectedPlan, ← JoinPlan.joins_iff_mem (fun _ => has_of_mem_selectedPlan) hroot, hnew]
    exact Bool.false_ne_true
  · rw [(filters_iff.mp hs.filters).2.2, hfilters]
    simp [Function.comp_def, hwrap]

namespace PlacedApart

variable {ρ ν : Type} [DecidableEq ν] {db : Database ρ ν} {conditions : List FilterCondition}
  {key : FanOut} {root : Join} {rest : List Join} {before after : List Predicate}

/-- A row passes if it passes the other conditions and each condition is met by some line. -/
theorem forall_holds_iff (h : PlacedApart c q s field conditions key root rest before after)
    {row : Scope ρ} :
    (∀ p ∈ s.predicates, p.holds db row) ↔ (∀ p ∈ before ++ after, p.holds db row) ∧
      db.MeetsApart (c.filterExpression field) conditions (db.lines key root rest row) := by
  rw [h.predicates, Database.MeetsApart]
  simp only [List.forall_mem_append, List.forall_mem_map, Predicate.holds_semiJoin]
  exact and_right_comm

/-- No two tables of the subqueries have one alias. -/
theorem aliases_nodup (h : PlacedApart c q s field conditions key root rest before after) :
    ((root :: rest).map (·.aliasName)).Nodup := by
  obtain ⟨direct, hchain⟩ := h.chain
  have hnodup := c.aliases_nodup_reach ((c.filterField? field).bind FilterField.join)
  rw [← Catalog.filterChain, hchain, List.map_append] at hnodup
  exact hnodup.of_append_right

end PlacedApart

/-- A map of operators on a field whose chain has a join of many rows that is not selected becomes
one semi-join for each operator. So a sale passes if each condition is met by some line of it. That
one line meets all of them is asked only if there is one operator or one line at most; it is what is
asked where the chain is joined as it stands, given that the join's condition says what its key says
and that the expression is NULL where a line is missing. -/
theorem conditions_apart (hr : r.resolve c maxLimit = .ok q) (hs : q.statement c = .ok s)
    (hfield : (field, .operators ops) ∈ r.filters.entries)
    (hfan : ∃ j ∈ c.filterChain field, j.fanOut.isSome ∧ j ∉ q.selectedJoins c) :
    ∃ target conditions key root rest before after,
      c.filterField? field = some target ∧
      ops.entries.mapM (fun o => resolveOperator target.kind o.1 o.2) = .ok conditions ∧
      PlacedApart c q s field conditions key root rest before after ∧
      ∀ {ρ ν : Type} [DecidableEq ν] (db : Database ρ ν),
        (∀ sale, s.keeps db sale ↔ ∃ row ∈ s.rows db sale, (∀ p ∈ before ++ after, p.holds db row) ∧
          db.MeetsApart target.expression conditions (db.lines key root rest row)) ∧
        (∀ sale, (ops.entries.length = 1 ∨
            ∀ row ∈ s.rows db sale, (db.lines key root rest row).length ≤ 1) →
          (s.keeps db sale ↔ ∃ row ∈ s.rows db sale, (∀ p ∈ before ++ after, p.holds db row) ∧
            db.MeetsTogether target.expression conditions (db.lines key root rest row))) ∧
        (root.Restates key db → ∀ row, (root.kind = .left →
            ∀ joined ∈ db.joinAll rest (row.bind root.aliasName (db.absent root.table)),
              db.value target.expression joined = none) →
          (db.MeetsTogether target.expression conditions (db.lines key root rest row) ↔
            db.MeetsTogether target.expression conditions (db.joinAll (root :: rest) row))) := by
  have hresolves := resolve_eq_ok.mp hr
  obtain ⟨target, conditions, htarget, hconditions, first, last, hfilters⟩ :=
    hresolves.filters_eq hfield
  obtain ⟨hops, hlength, hne⟩ := resolveConditions_operators hconditions
  obtain ⟨direct, key, root, rest, hsplit⟩ := exists_splitFanOut hfan
  obtain ⟨before, after, hplaced⟩ := (statement_eq_ok.mp hs).placedApart hfilters hsplit
  have hexpression : c.filterExpression field = target.expression := by
    rw [Catalog.filterExpression, htarget]
    rfl
  refine ⟨target, conditions, key, root, rest, before, after, htarget, hops, hplaced, ?_⟩
  intro ρ ν _ db
  rw [← hexpression]
  have hkeeps : ∀ sale, s.keeps db sale ↔ ∃ row ∈ s.rows db sale,
      (∀ p ∈ before ++ after, p.holds db row) ∧
        db.MeetsApart (c.filterExpression field) conditions (db.lines key root rest row) :=
    fun sale => Statement.keeps_iff.trans
      (exists_congr fun row => and_congr_right fun _ => hplaced.forall_holds_iff)
  -- Nothing but the way in which the conditions are met differs between the readings of a sale.
  refine ⟨hkeeps, fun sale hfew => (hkeeps sale).trans ?_, fun hrestates row hnull => ?_⟩
  · refine exists_congr fun row => and_congr_right fun hrow => and_congr_right fun _ => ?_
    exact Database.meetsApart_iff_meetsTogether hne (hfew.imp hlength.trans fun h => h row hrow)
  · exact Database.meetsTogether_lines_iff hne hrestates hplaced.aliases_nodup hnull

/-- Asks for the revenue of the sales with a product from M to P. -/
def revenueInRange : QueryRequest where
  metrics := ["faturamento"]
  filters := .ofList
    [("produto", .operators (.ofList [("gte", .string "M"), ("lte", .string "P")]))]

/-- The lines of sales. -/
def saleLines : Join where
  table := "product_sales"
  aliasName := "ps"
  condition := "s.id = ps.sale_id"
  fanOut := some ⟨"s.id", "ps.sale_id"⟩

/-- The products of lines. -/
def lineProducts : Join where
  table := "products"
  aliasName := "p"
  condition := "ps.product_id = p.id"
  dependsOn := some "ps"

/-- The name of the product is from M on. -/
def fromM : Predicate := .compare "p.name" .gte (.text "M")

/-- The name of the product is up to P. -/
def upToP : Predicate := .compare "p.name" .lte (.text "P")

/-- The statement of the revenue: two semi-joins over the lines of sales. -/
def revenueInRangeStatement : Statement where
  columns := [.aliased "SUM(s.total_amount)" "faturamento"]
  joins := []
  predicates := [.raw basePredicate,
    .semiJoin ⟨"s.id", "ps.sale_id"⟩ saleLines [lineProducts] fromM,
    .semiJoin ⟨"s.id", "ps.sale_id"⟩ saleLines [lineProducts] upToP]
  grouped := 0
  orderBy := []
  limit := none
  offset := none

/-- The statement of the revenue by product: the lines of sales are joined. -/
def revenueByProductStatement : Statement where
  columns := [.aliased "p.name" "produto", .aliased "SUM(s.total_amount)" "faturamento"]
  joins := [saleLines, lineProducts]
  predicates := [.raw basePredicate, fromM, upToP]
  grouped := 1
  orderBy := []
  limit := none
  offset := none

/-- A database of one sale, with a line of juice and one of bacon. Rows are lists of columns with
their values. -/
def juiceAndBacon : Database (List (String × String)) String where
  rows table :=
    if table = "product_sales" then
      [[("ps.sale_id", "1"), ("ps.product_id", "1")], [("ps.sale_id", "1"), ("ps.product_id", "2")]]
    else [[("p.id", "1"), ("p.name", "Suco")], [("p.id", "2"), ("p.name", "Bacon")]]
  absent _ := []
  value := column
  holds condition scope :=
    if condition = saleLines.condition then agree "s.id" "ps.sale_id" scope
    else if condition = lineProducts.condition then agree "ps.product_id" "p.id" scope
    else condition = basePredicate
  compares op name
    | .text bound =>
      match op with
      | .eq => name = bound
      | .gt => bound < name
      | .gte => bound ≤ name
      | .lt => name < bound
      | .lte => name ≤ bound
    | _ => false
where
  /-- The value of a column, which is qualified by its alias. -/
  column (name : String) (scope : Scope (List (String × String))) : Option String :=
    (scope (.ofList (name.toList.takeWhile (· ≠ '.')))).bind (·.lookup name)
  /-- Whether two columns have one value. -/
  agree (left right : String) (scope : Scope (List (String × String))) : Bool :=
    match column left scope with
    | some a => column right scope = some a
    | none => false

/-- The condition of the lines says what their key says. -/
theorem restates_saleLines : saleLines.Restates ⟨"s.id", "ps.sale_id"⟩ juiceAndBacon where
  condition scope row := by
    have hcolumn : juiceAndBacon.column "s.id" (scope.bind "ps" row) =
        juiceAndBacon.column "s.id" scope := by
      have hsale : String.ofList ("s.id".toList.takeWhile (· ≠ '.')) = "s" := by decide +kernel
      rw [juiceAndBacon.column, juiceAndBacon.column, hsale,
        scope.bind_of_ne row (by decide : "s" ≠ "ps")]
    change juiceAndBacon.agree "s.id" "ps.sale_id" (scope.bind "ps" row) = _
    rw [juiceAndBacon.agree, hcolumn, Database.linked]
    have hvalue : juiceAndBacon.value = juiceAndBacon.column := rfl
    simp only [hvalue]
    cases juiceAndBacon.column "s.id" scope with
    | none => rfl
    | some a => exact decide_eq_decide.mpr Iff.rfl
  column scope scope' h := by
    have hline : String.ofList ("ps.sale_id".toList.takeWhile (· ≠ '.')) = "ps" := by decide +kernel
    change juiceAndBacon.column "ps.sale_id" scope = juiceAndBacon.column "ps.sale_id" scope'
    rw [juiceAndBacon.column, juiceAndBacon.column, hline]
    exact congrArg (Option.bind · _) h

/-- The only sale. -/
def onlySale : List (String × String) := [("s.id", "1")]

/-- The request for the revenue is resolved and has its statement. -/
theorem exists_revenueInRangeStatement :
    ∃ q, revenueInRange.resolve Catalog.restaurant 1000 = .ok q ∧
      q.statement Catalog.restaurant = .ok revenueInRangeStatement := by
  have h : ((revenueInRange.resolve Catalog.restaurant 1000).toOption.bind fun q =>
      (q.statement Catalog.restaurant).toOption) = some revenueInRangeStatement := by
    decide +kernel
  obtain ⟨q, hq, hs⟩ := Option.bind_eq_some_iff.mp h
  exact ⟨q, toOption_eq_some.mp hq, toOption_eq_some.mp hs⟩

/-- Both ends of a range on products stand apart, in two semi-joins over the lines of sales and
their products. One line that meets both is what the joined lines are asked for. -/
theorem conditions_apart_revenueInRange :
    ∃ q conditions before after,
      revenueInRange.resolve Catalog.restaurant 1000 = .ok q ∧
      q.statement Catalog.restaurant = .ok revenueInRangeStatement ∧ conditions.length = 2 ∧
      PlacedApart Catalog.restaurant q revenueInRangeStatement "produto" conditions
        ⟨"s.id", "ps.sale_id"⟩ saleLines [lineProducts] before after ∧
      ∀ row, juiceAndBacon.MeetsTogether "p.name" conditions
          (juiceAndBacon.lines ⟨"s.id", "ps.sale_id"⟩ saleLines [lineProducts] row) ↔
        juiceAndBacon.MeetsTogether "p.name" conditions
          (juiceAndBacon.joinAll [saleLines, lineProducts] row) := by
  obtain ⟨q, hq, hs⟩ := exists_revenueInRangeStatement
  have hchain : Catalog.restaurant.filterChain "produto" = [saleLines, lineProducts] := by
    decide +kernel
  have hnone : saleLines ∉ q.selectedJoins Catalog.restaurant := fun h =>
    absurd ((statement_eq_ok.mp hs).mem_joins_iff.mpr (.inl h)) List.not_mem_nil
  have hfan : ∃ j ∈ Catalog.restaurant.filterChain "produto",
      j.fanOut.isSome ∧ j ∉ q.selectedJoins Catalog.restaurant :=
    ⟨saleLines, hchain ▸ List.mem_cons_self, rfl, hnone⟩
  obtain ⟨target, conditions, key, root, rest, before, after, htarget, hops, hplaced, hreadings⟩ :=
    conditions_apart hq hs (List.mem_singleton_self _) hfan
  have hlength := (mapM_eq_ok.mp hops).length_eq
  obtain ⟨direct, hdirect⟩ := hplaced.chain
  rw [hchain] at hdirect
  -- Of the two joins of the chain, only the first has a key.
  obtain ⟨rfl, rfl⟩ : saleLines = root ∧ [lineProducts] = rest := by
    rcases direct with _ | ⟨first, _ | ⟨second, others⟩⟩
    · exact List.cons.inj hdirect
    · obtain ⟨rfl, -⟩ := List.cons.inj (List.cons.inj hdirect).2
      exact absurd hplaced.key_eq nofun
    · simp at hdirect
  obtain rfl : (⟨"s.id", "ps.sale_id"⟩ : FanOut) = key := Option.some.inj hplaced.key_eq
  have hexpression : target.expression = "p.name" := by
    have hname : (Catalog.restaurant.filterField? "produto").map FilterField.expression =
        some "p.name" := by decide +kernel
    rw [htarget] at hname
    exact Option.some.inj hname
  rw [hexpression] at hreadings
  exact ⟨q, conditions, before, after, hq, hs, hlength.symm, hplaced, fun row =>
    (hreadings juiceAndBacon).2.2 restates_saleLines row nofun⟩

/-- A range on products is two conditions on a sale and not one on a line: the sale of a juice and a
bacon has no product from M to P and still counts. With the products of its lines joined, the sale
does not count. -/
theorem range_met_by_two_lines :
    Catalog.restaurant.Consistent ∧
      (∃ q, revenueInRange.resolve Catalog.restaurant 1000 = .ok q ∧
        q.statement Catalog.restaurant = .ok revenueInRangeStatement) ∧
      revenueInRangeStatement.keeps juiceAndBacon onlySale = true ∧
      (∀ row ∈ revenueInRangeStatement.rows juiceAndBacon onlySale,
        ¬ ∃ line ∈ juiceAndBacon.lines ⟨"s.id", "ps.sale_id"⟩ saleLines [lineProducts] row,
          fromM.holds juiceAndBacon line ∧ upToP.holds juiceAndBacon line) ∧
      (∃ q, { revenueInRange with dimensions := ["produto"] }.resolve Catalog.restaurant 1000 =
          .ok q ∧ q.statement Catalog.restaurant = .ok revenueByProductStatement) ∧
      revenueByProductStatement.keeps juiceAndBacon onlySale = false := by
  have hc : Catalog.restaurant.Consistent := by
    unfold Catalog.Consistent
    decide +kernel
  have hdirect : (({ revenueInRange with dimensions := ["produto"] }.resolve Catalog.restaurant
      1000).toOption.bind fun q => (q.statement Catalog.restaurant).toOption) =
        some revenueByProductStatement := by
    decide +kernel
  obtain ⟨q, hq, hs⟩ := Option.bind_eq_some_iff.mp hdirect
  refine ⟨hc, exists_revenueInRangeStatement, by decide +kernel, by decide +kernel,
    ⟨q, toOption_eq_some.mp hq, toOption_eq_some.mp hs⟩, by decide +kernel⟩

end ResolvedQuery

end SalesQuery
