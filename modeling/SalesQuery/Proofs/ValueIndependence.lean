import SalesQuery.Catalog.Restaurant
import SalesQuery.Proofs.StatementText

/-!
# The SQL does not depend on values

Two queries that differ in their values only (`ResolvedQuery.Alike`) go through the compiler side by
side: they fail alike, and the predicates, fragments and statements that are made of them differ in
scalars only. Rendering writes a placeholder for every scalar, whatever it is, so the SQL is the
same text. The filter values of a request can thus not change the statement that it becomes.
-/

namespace SalesQuery

/-! ## Computations side by side -/

/-- Two computations fail with the same fault, or both return, and what they return is related. -/
inductive SameOutcome {ε α β : Type} (R : α → β → Prop) : Except ε α → Except ε β → Prop where
  /-- Both fail. -/
  | error (e : ε) : SameOutcome R (.error e) (.error e)
  /-- Both return. -/
  | ok {a : α} {b : β} (h : R a b) : SameOutcome R (.ok a) (.ok b)

namespace SameOutcome

variable {ε α β γ δ : Type} {R : α → β → Prop} {S : γ → δ → Prop}

/-- A computation has the same outcome as itself. -/
theorem refl (x : Except ε α) : SameOutcome Eq x x := by
  cases x with
  | error e => exact .error e
  | ok a => exact .ok rfl

/-- Sequences have the same outcome if their first steps do and then their rests. -/
theorem bind {x : Except ε α} {y : Except ε β} (h : SameOutcome R x y) {f : α → Except ε γ}
    {g : β → Except ε δ} (hfg : ∀ a b, R a b → SameOutcome S (f a) (g b)) :
    SameOutcome S (x >>= f) (y >>= g) := by
  cases h with
  | error e => exact .error e
  | ok hab => exact hfg _ _ hab

/-- Mapped computations have the same outcome if they have it without the maps. -/
theorem map {x : Except ε α} {y : Except ε β} (h : SameOutcome R x y) {f : α → γ} {g : β → δ}
    (hfg : ∀ a b, R a b → S (f a) (g b)) : SameOutcome S (f <$> x) (g <$> y) := by
  cases h with
  | error e => exact .error e
  | ok hab => exact .ok (hfg _ _ hab)

end SameOutcome

/-! ## What differs in scalars only -/

/-- Two fragments are the same text, or both bind a scalar. -/
inductive Fragment.Alike : Fragment → Fragment → Prop where
  /-- A text is like itself. -/
  | sql (text : String) : Alike (.sql text) (.sql text)
  /-- Any two scalars are alike. -/
  | bind (v w : Scalar) : Alike (.bind v) (.bind w)

/-- Two conditions differ in their scalars only. -/
inductive Predicate.Alike : Predicate → Predicate → Prop where
  /-- A condition without scalars is like itself. -/
  | raw (sql : String) : Alike (.raw sql) (.raw sql)
  /-- Comparisons with any two scalars are alike. -/
  | compare (expression : String) (op : Comparison) (v w : Scalar) :
    Alike (.compare expression op v) (.compare expression op w)
  /-- Memberships in lists of the same length are alike. -/
  | inList (expression : String) {l m : List Scalar} (h : l.length = m.length) :
    Alike (.inList expression l) (.inList expression m)
  /-- Semi-joins are alike if their conditions are. -/
  | semiJoin (key : FanOut) (root : Join) (joins : List Join) {p p' : Predicate} (h : Alike p p') :
    Alike (.semiJoin key root joins p) (.semiJoin key root joins p')

/-- Two conditions of filters are of the same kind, with the same operator or lists of the same
length. -/
inductive FilterCondition.Alike : FilterCondition → FilterCondition → Prop where
  /-- Equality with any two scalars is alike. -/
  | equals (v w : Scalar) : Alike (.equals v) (.equals w)
  /-- Memberships in lists of the same length are alike. -/
  | oneOf {l m : List Scalar} (h : l.length = m.length) : Alike (.oneOf l) (.oneOf m)
  /-- Comparisons with any two scalars are alike. -/
  | compare (op : Comparison) (v w : Scalar) : Alike (.compare op v) (.compare op w)

/-- Two filters on the same field have conditions that are alike. -/
structure Filter.Alike (f g : Filter) : Prop where
  /-- The field is the same. -/
  field : f.field = g.field
  /-- The conditions are alike. -/
  condition : f.condition.Alike g.condition

/-- Two queries differ in the values of their filters and in the days of their ranges only. -/
structure ResolvedQuery.Alike (q r : ResolvedQuery) : Prop where
  /-- The dimensions are the same. -/
  dimensions : q.dimensions = r.dimensions
  /-- The metrics are the same. -/
  metrics : q.metrics = r.metrics
  /-- The filters are alike, one by one. -/
  filters : List.Forall₂ Filter.Alike q.filters r.filters
  /-- Both have a first day, or neither. -/
  start : (q.dateRange.bind DateRange.start).isSome = (r.dateRange.bind DateRange.start).isSome
  /-- Both have a last day, or neither. -/
  stop : (q.dateRange.bind DateRange.stop).isSome = (r.dateRange.bind DateRange.stop).isSome
  /-- The order is the same. -/
  orderBy : q.orderBy = r.orderBy
  /-- The limit is the same. -/
  limit : q.limit = r.limit
  /-- The offset is the same. -/
  offset : q.offset = r.offset

/-- Two statements differ in the scalars of their conditions only. -/
structure Statement.Alike (s t : Statement) : Prop where
  /-- The conditions are alike, one by one. -/
  predicates : List.Forall₂ Predicate.Alike s.predicates t.predicates
  /-- Everything else is the same. -/
  others : t = { s with predicates := t.predicates }

/-! ## Rendering -/

/-- Fragments that differ in scalars only are rendered to the same texts. -/
theorem Fragment.render_eq_of_alike {l m : List Fragment} (h : List.Forall₂ Alike l m)
    (bound : Nat) : render bound l = render bound m := by
  induction h generalizing bound with
  | nil => rfl
  | cons hfragment _ ih =>
    cases hfragment with
    | sql text => rw [render, render, ih]
    | bind v w => rw [render, render, ih]

/-- Groups of fragments that differ in scalars only do so with separators between them. -/
theorem Fragment.alike_separated (separator : String) {groups groups' : List (List Fragment)}
    (h : List.Forall₂ (List.Forall₂ Alike) groups groups') :
    List.Forall₂ Alike (separated separator groups) (separated separator groups') := by
  induction h with
  | nil => exact .nil
  | cons hgroup hrest ih =>
    cases hrest with
    | nil => exact hgroup
    | cons hnext hrest => exact List.rel_append hgroup (.cons (.sql separator) ih)

/-- Lists of scalars of the same length are bound by fragments that are alike. -/
theorem Fragment.alike_binds {l m : List Scalar} (h : l.length = m.length) :
    List.Forall₂ (List.Forall₂ Alike) (l.map fun v => [.bind v]) (m.map fun v => [.bind v]) := by
  rw [List.forall₂_map_left_iff, List.forall₂_map_right_iff]
  exact List.forall₂_of_length_eq_of_get h fun i _ _ => .cons (.bind _ _) .nil

/-- Conditions that are alike are written with fragments that are alike. -/
theorem Predicate.Alike.fragments {p p' : Predicate} (h : p.Alike p') :
    List.Forall₂ Fragment.Alike p.fragments p'.fragments := by
  induction h with
  | raw sql => exact .cons (.sql _) .nil
  | compare expression op v w => exact .cons (.sql _) (.cons (.bind v w) .nil)
  | inList expression h =>
    rename_i l m
    -- The empty list is written in another way, and only the length tells which lists are empty.
    cases l with
    | nil =>
      obtain rfl := List.length_eq_zero_iff.mp h.symm
      exact .cons (.sql _) .nil
    | cons v l =>
      cases m with
      | nil => contradiction
      | cons w m =>
        refine .cons (.sql _) (List.rel_append ?_ (.cons (.sql _) .nil))
        exact Fragment.alike_separated ", " (Fragment.alike_binds h)
  | semiJoin key root joins h ih =>
    exact .cons (.sql _) (List.rel_append ih (.cons (.sql _) .nil))

/-- Statements that are alike have the same SQL. -/
theorem Statement.Alike.sql_eq {s t : Statement} (h : s.Alike t) :
    s.compiled.sql = t.compiled.sql := by
  -- Whether there is a clause depends on whether there are conditions, which is the same for both.
  have hwhere : List.Forall₂ Fragment.Alike s.whereClause t.whereClause := by
    rw [whereClause, whereClause]
    have hpredicates := h.predicates
    generalize s.predicates = l at hpredicates ⊢
    generalize t.predicates = m at hpredicates ⊢
    cases hpredicates with
    | nil => exact .nil
    | cons hp hrest =>
      refine .cons (.sql _) (Fragment.alike_separated " AND " ?_)
      rw [List.forall₂_map_left_iff, List.forall₂_map_right_iff]
      exact (List.Forall₂.cons hp hrest).imp fun _ _ hp => hp.fragments
  have hfragments : List.Forall₂ Fragment.Alike s.fragments t.fragments := by
    have htext : s.fromClause = t.fromClause ∧ s.tailClauses = t.tailClauses := by
      rw [h.others]
      exact ⟨rfl, rfl⟩
    show List.Forall₂ Fragment.Alike
      (.sql s.fromClause :: (s.whereClause ++ [.sql s.tailClauses]))
      (.sql t.fromClause :: (t.whereClause ++ [.sql t.tailClauses]))
    rw [htext.1, htext.2]
    exact .cons (.sql _) (List.rel_append hwhere (.cons (.sql _) .nil))
  exact congrArg String.join (Fragment.render_eq_of_alike hfragments 0)

/-! ## Compiling -/

/-- The conditions on an expression are alike if the conditions of the filters are. -/
theorem FilterCondition.Alike.conditionPredicate {condition condition' : FilterCondition}
    (h : condition.Alike condition') (expression : String) :
    (ResolvedQuery.conditionPredicate expression condition).Alike
      (ResolvedQuery.conditionPredicate expression condition') := by
  cases h with
  | equals v w => exact .compare expression .eq v w
  | oneOf h => exact .inList expression h
  | compare op v w => exact .compare expression op v w

/-- Conditions that are alike are placed alike. -/
theorem Predicate.Alike.wrap {p p' : Predicate} (h : p.Alike p') (plan : JoinPlan)
    (chain : List Join) : (plan.wrap chain p).Alike (plan.wrap chain p') := by
  rw [JoinPlan.wrap, JoinPlan.wrap]
  split
  · exact h
  · exact .semiJoin _ _ _ h

namespace ResolvedQuery

variable {c : Catalog} {q r : ResolvedQuery}

/-- Filters that are alike join the same joins, and their conditions are alike. -/
theorem sameOutcome_planFilters {filters filters' : List Filter}
    (h : List.Forall₂ Filter.Alike filters filters') (plan : JoinPlan) :
    SameOutcome (fun a b => a.1 = b.1 ∧ List.Forall₂ Predicate.Alike a.2 b.2)
      (planFilters c plan filters) (planFilters c plan filters') := by
  induction h generalizing plan with
  | nil => exact .ok ⟨rfl, .nil⟩
  | cons hfilter _ ih =>
    rw [planFilters_cons, planFilters_cons, hfilter.field]
    -- The target depends on the field alone, so both go on with the same plan or fail together.
    refine (SameOutcome.refl _).bind fun target _ htarget => ?_
    subst htarget
    refine (ih _).map fun a b hab => ⟨hab.1, .cons ?_ hab.2⟩
    exact (hfilter.condition.conditionPredicate target.1).wrap plan target.2

/-- The conditions before those of the filters, by the two bounds of the days. -/
theorem fixedPredicates_eq (q : ResolvedQuery) :
    q.fixedPredicates = .raw basePredicate ::
      (((q.dateRange.bind DateRange.start).map fun d =>
          Predicate.compare saleDate .gte (.date d)).toList ++
        ((q.dateRange.bind DateRange.stop).map fun d =>
          Predicate.compare saleDate .lte (.date d)).toList) := by
  rw [fixedPredicates]
  cases q.dateRange with
  | none => rfl
  | some range => rfl

/-- The conditions of two bounds are alike if both are there or neither is. -/
theorem alike_bound (op : Comparison) {d d' : Option Date} (h : d.isSome = d'.isSome) :
    List.Forall₂ Predicate.Alike (d.map fun d => Predicate.compare saleDate op (.date d)).toList
      (d'.map fun d => Predicate.compare saleDate op (.date d)).toList := by
  cases d with
  | none =>
    cases d' with
    | none => exact .nil
    | some d' => contradiction
  | some d =>
    cases d' with
    | none => contradiction
    | some d' => exact .cons (.compare _ _ _ _) .nil

/-- The conditions before those of the filters are alike if the queries are. -/
theorem Alike.fixedPredicates (h : q.Alike r) :
    List.Forall₂ Predicate.Alike q.fixedPredicates r.fixedPredicates := by
  rw [fixedPredicates_eq, fixedPredicates_eq]
  exact .cons (.raw _) (List.rel_append (alike_bound .gte h.start) (alike_bound .lte h.stop))

/-- Queries that are alike have the same faults, or their statements are alike. -/
theorem Alike.sameOutcome_statement (h : q.Alike r) :
    SameOutcome Statement.Alike (q.statement c) (r.statement c) := by
  rw [statement, statement, h.dimensions, h.metrics, h.orderBy, h.limit, h.offset]
  refine (SameOutcome.refl _).bind fun dimensions _ hdimensions => ?_
  subst hdimensions
  refine (SameOutcome.refl _).bind fun metrics _ hmetrics => ?_
  subst hmetrics
  refine (sameOutcome_planFilters h.filters _).bind fun a b hab => .ok ?_
  obtain ⟨joins, predicates⟩ := a
  obtain ⟨joins', predicates'⟩ := b
  obtain ⟨rfl, hpredicates⟩ := hab
  exact ⟨List.rel_append h.fixedPredicates hpredicates, rfl⟩

/-- The text and parameters of a query that has a statement: the text of the statement, and the
values of the query. -/
theorem compile_of_statement {s : Statement} (h : q.statement c = .ok s) :
    q.compile c = .ok ⟨s.compiled.sql, q.values⟩ := by
  have hparams : s.compiled.params = q.values := by
    rw [← (statement_eq_ok.mp h).values, ← s.filterMap_fragments]
    rfl
  rw [compile, h, ← hparams]
  rfl

/-- Queries that are alike fail with the same fault, or compile to the same SQL, each with its own
values as parameters. -/
theorem Alike.compile_same_sql (h : q.Alike r) :
    (∃ fault, q.compile c = .error fault ∧ r.compile c = .error fault) ∨
      ∃ sql, q.compile c = .ok ⟨sql, q.values⟩ ∧ r.compile c = .ok ⟨sql, r.values⟩ := by
  have houtcome := h.sameOutcome_statement (c := c)
  generalize hq : q.statement c = x at houtcome
  generalize hr : r.statement c = y at houtcome
  cases houtcome with
  | error fault =>
    refine .inl ⟨fault, ?_, ?_⟩
    · rw [ResolvedQuery.compile, hq]
      rfl
    · rw [ResolvedQuery.compile, hr]
      rfl
  | ok halike =>
    refine .inr ⟨_, compile_of_statement hq, ?_⟩
    rw [halike.sql_eq]
    exact compile_of_statement hr

/-- The revenue of the sales with a product over one of two channels, from a day on. -/
def revenueOf (product channel other : String) (day : Date) : ResolvedQuery where
  dimensions := []
  metrics := [.catalog "faturamento"]
  filters := [⟨"produto", .equals (.text product)⟩,
    ⟨"channel", .oneOf [.text channel, .text other]⟩]
  dateRange := some ⟨some day, none⟩
  orderBy := []
  limit := none
  offset := none

/-- A product name that is written like SQL gives the same statement as any other. -/
theorem Alike.compile_same_sql_revenue :
    (revenueOf "Pizza" "iFood" "Rappi" ⟨2024, 1, 31, by decide⟩).Alike
        (revenueOf "'; DROP TABLE sales; --" "$1" "" ⟨2020, 2, 29, by decide⟩) ∧
      ∃ sql,
        (revenueOf "Pizza" "iFood" "Rappi" ⟨2024, 1, 31, by decide⟩).compile Catalog.restaurant =
          .ok ⟨sql, [.date ⟨2024, 1, 31, by decide⟩, .text "Pizza", .text "iFood",
            .text "Rappi"]⟩ ∧
        (revenueOf "'; DROP TABLE sales; --" "$1" "" ⟨2020, 2, 29, by decide⟩).compile
            Catalog.restaurant =
          .ok ⟨sql, [.date ⟨2020, 2, 29, by decide⟩, .text "'; DROP TABLE sales; --", .text "$1",
            .text ""]⟩ := by
  have halike : (revenueOf "Pizza" "iFood" "Rappi" ⟨2024, 1, 31, by decide⟩).Alike
      (revenueOf "'; DROP TABLE sales; --" "$1" "" ⟨2020, 2, 29, by decide⟩) :=
    ⟨rfl, rfl, .cons ⟨rfl, .equals _ _⟩ (.cons ⟨rfl, .oneOf rfl⟩ .nil), rfl, rfl, rfl, rfl, rfl⟩
  refine ⟨halike, ?_⟩
  obtain ⟨fault, hfault, _⟩ | ⟨sql, hq, hr⟩ := halike.compile_same_sql (c := Catalog.restaurant)
  · have hok : ((revenueOf "Pizza" "iFood" "Rappi" ⟨2024, 1, 31, by decide⟩).compile
        Catalog.restaurant).isOk := by decide +kernel
    rw [hfault] at hok
    contradiction
  · exact ⟨sql, hq, hr⟩

end ResolvedQuery

end SalesQuery
