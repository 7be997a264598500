import SalesQuery.Proofs.Admissibility
import SalesQuery.Proofs.StoreContents

/-!
# Filters with a text left open

An `OpenFilter` is a filter in which one text is left open: the value itself, a value of a list, the
operand of an operator, or a value of the list that is the operand. On a date field, the text counts
by the day that it is read as only (`readDay`). So if some text makes the filter one that resolves,
then every other text resolves to the same conditions with another day, or stops with the fault that
it is no day (`OpenFilter.resolveConditions_fill`); and the same holds of the request that the filter
is part of (`QueryRequest.resolve_fill`).
-/

namespace SalesQuery

open Json (Value)

/-- The day that a text of a filter is read as. -/
def readDay (raw : String) : Except ValueFault Date :=
  match Date.ofFilterText? raw with
  | some d => .ok d
  | none => .error (.notADate raw)

/-- A filter in which a text is left open. -/
inductive OpenFilter where
  /-- The text is the value. -/
  | value
  /-- The text is one of the values of a list. -/
  | element (before after : List Value)
  /-- The text is the operand of an operator. There may be other operators. -/
  | operand (op : String) (others : Dictionary Value)
  /-- The text is one of the values that are the operand of an operator. -/
  | operandElement (op : String) (others : Dictionary Value) (before after : List Value)

/-- The filter with a text in the open place. -/
def OpenFilter.fill (raw : String) : OpenFilter → FilterInput
  | .value => .scalar (.string raw)
  | .element before after => .list (before ++ .string raw :: after)
  | .operand op others => .operators (others.insert op (.string raw))
  | .operandElement op others before after =>
    .operators (others.insert op (.array (before ++ .string raw :: after)))

/-- A condition in which a scalar is left open. -/
inductive OpenCondition where
  /-- The value is the scalar. -/
  | equals
  /-- The value is the scalar or one of the others. -/
  | oneOf (before after : List Scalar)
  /-- The value is above or below the scalar. -/
  | compare (op : Comparison)

/-- The condition with a scalar in the open place. -/
def OpenCondition.fill (s : Scalar) : OpenCondition → FilterCondition
  | .equals => .equals s
  | .oneOf before after => .oneOf (before ++ s :: after)
  | .compare op => .compare op s

/-- The condition in which the open text of a filter on a date field counts. -/
inductive OpenFilter.StandsFor : OpenFilter → OpenCondition → Prop
  /-- The value has to be the day. -/
  | value : StandsFor .value .equals
  /-- The value has to be one of the days of the list, which are in the same order. -/
  | element {before after : List Value} {bs as : List Scalar}
    (hbefore : List.Forall₂ ValueKind.date.Binds before bs)
    (hafter : List.Forall₂ ValueKind.date.Binds after as) :
    StandsFor (.element before after) (.oneOf bs as)
  /-- The value has to be the operand. -/
  | operandEquals {op : String} (others : Dictionary Value) (hop : Text.SameLetters op "eq") :
    StandsFor (.operand op others) .equals
  /-- The value has to compare with the operand in the way that the operator names. -/
  | operandCompare {op : String} {c : Comparison} (others : Dictionary Value) (hc : c ≠ .eq)
    (hop : Text.SameLetters op c.name) : StandsFor (.operand op others) (.compare c)
  /-- The value has to be one of the days of the operand, which are in the same order. -/
  | operandElement {op : String} {before after : List Value} {bs as : List Scalar}
    (others : Dictionary Value) (hop : Text.SameLetters op "in")
    (hbefore : List.Forall₂ ValueKind.date.Binds before bs)
    (hafter : List.Forall₂ ValueKind.date.Binds after as) :
    StandsFor (.operandElement op others before after) (.oneOf bs as)

/-! ## Conditions -/

/-- A text on a date field resolves to the day that it is read as. -/
theorem resolveScalar_text (raw : String) :
    resolveScalar .date (.string raw) = Scalar.date <$> readDay raw := by
  rw [resolveScalar, readDay]
  cases Date.ofFilterText? raw <;> rfl

/-- A list of days with a text left open. -/
theorem resolveList_open {before after : List Value} {raw : String} {l : List Scalar}
    (h : resolveList .date (before ++ .string raw :: after) = .ok l) :
    ∃ bs as, List.Forall₂ ValueKind.date.Binds before bs ∧
      List.Forall₂ ValueKind.date.Binds after as ∧
      ∀ raw, resolveList .date (before ++ .string raw :: after) =
        (fun d => bs ++ .date d :: as) <$> readDay raw := by
  have hbinds {values : List Value} {l : List Scalar} :
      values.mapM (resolveScalar .date) = .ok l ↔ List.Forall₂ ValueKind.date.Binds values l := by
    simp only [mapM_eq_ok, resolveScalar_eq_ok]
  obtain ⟨hshort, hl⟩ := resolveList_eq_ok.mp h
  obtain ⟨bs, as, hbs, has, haround⟩ := mapM_around (hbinds.mpr hl)
  refine ⟨bs, as, hbinds.mp hbs, hbinds.mp has, fun raw' => ?_⟩
  have hlength : ¬ maxListValues < (before ++ .string raw' :: after).length := by
    have hlist : maxListValues = 200 := rfl
    simp only [List.length_append, List.length_cons] at hshort ⊢
    omega
  rw [resolveList, if_neg hlength, haround, resolveScalar_text]
  cases readDay raw' <;> rfl

/-- An operator of a date field whose operand is a text left open. -/
theorem resolveOperator_open {op : String} {raw : String} {condition : FilterCondition}
    (h : resolveOperator .date op (.string raw) = .ok condition) (others : Dictionary Value) :
    ∃ slot, (OpenFilter.operand op others).StandsFor slot ∧
      ∀ raw, resolveOperator .date op (.string raw) =
        (fun d => slot.fill (.date d)) <$> readDay raw := by
  have hmap (raw : String) (f : Scalar → FilterCondition) :
      f <$> resolveScalar .date (.string raw) = (fun d => f (.date d)) <$> readDay raw := by
    rw [resolveScalar_text]
    cases readDay raw <;> rfl
  cases resolveOperator_eq_ok.mp h with
  | equals hop _ =>
    refine ⟨.equals, .operandEquals others hop, fun raw => ?_⟩
    have hop : Text.lowerAscii op = "eq" := (Text.sameLetters_iff (by decide)).mp hop
    simp only [resolveOperator, hop]
    exact hmap raw .equals
  | @compare _ _ c hc hop _ =>
    refine ⟨.compare c, .operandCompare others hc hop, fun raw => ?_⟩
    have hop : Text.lowerAscii op = c.name := (Text.sameLetters_iff (by cases c <;> decide)).mp hop
    have hcompare := hmap raw (.compare c)
    cases c with
    | eq => exact absurd rfl hc
    | _ =>
      simp only [resolveOperator, hop, Comparison.name]
      exact hcompare

/-- An operator of a date field whose operand is a list with a text left open. -/
theorem resolveOperator_openList {op : String} {before after : List Value} {raw : String}
    {condition : FilterCondition}
    (h : resolveOperator .date op (.array (before ++ .string raw :: after)) = .ok condition)
    (others : Dictionary Value) :
    ∃ slot, (OpenFilter.operandElement op others before after).StandsFor slot ∧
      ∀ raw, resolveOperator .date op (.array (before ++ .string raw :: after)) =
        (fun d => slot.fill (.date d)) <$> readDay raw := by
  cases resolveOperator_eq_ok.mp h with
  | equals _ hv => cases hv
  | compare _ _ hv => cases hv
  | oneOf hop hl =>
    obtain ⟨bs, as, hbs, has, hlist⟩ := resolveList_open (resolveList_eq_ok.mpr hl)
    refine ⟨.oneOf bs as, .operandElement others hop hbs has, fun raw => ?_⟩
    have hop : Text.lowerAscii op = "in" := (Text.sameLetters_iff (by decide)).mp hop
    simp only [resolveOperator, hop, hlist]
    cases readDay raw <;> rfl

/-- Operators of which one is left open resolve to the conditions of the others, and that of the open
one between them. -/
theorem resolveConditions_openOperators {others : Dictionary Value} {op : String} {v : Value}
    {conditions : List FilterCondition}
    (h : resolveConditions .date (.operators (others.insert op v)) = .ok conditions) :
    (∃ condition, resolveOperator .date op v = .ok condition) ∧
      ∃ before after, ∀ v, resolveConditions .date (.operators (others.insert op v)) =
        (fun condition => before ++ condition :: after) <$> resolveOperator .date op v := by
  obtain ⟨first, last, hentries⟩ := Dictionary.exists_insertEntry_eq op others.entries
  have hresolve (v : Value) : resolveConditions .date (.operators (others.insert op v)) =
      (first ++ (op, v) :: last).mapM fun entry => resolveOperator .date entry.1 entry.2 := by
    have hne : (others.insert op v).isEmpty = false := by
      simp [Dictionary.isEmpty, Dictionary.insert, hentries]
    rw [resolveConditions, hne, if_neg Bool.false_ne_true, Dictionary.insert, ← hentries]
  rw [hresolve] at h
  obtain ⟨before, after, -, -, haround⟩ := mapM_around h
  refine ⟨exists_of_mem_of_mapM h (List.mem_append_right first List.mem_cons_self), before, after,
    fun v => ?_⟩
  rw [hresolve, haround]

/-- If a filter on a date field resolves with some text in its open place, every text resolves to the
same conditions with the day that it is read as. -/
theorem OpenFilter.resolveConditions_fill {place : OpenFilter} {raw : String}
    {conditions : List FilterCondition}
    (h : resolveConditions .date (place.fill raw) = .ok conditions) :
    ∃ before slot after, place.StandsFor slot ∧
      ∀ raw, resolveConditions .date (place.fill raw) =
        (fun d => before ++ slot.fill (.date d) :: after) <$> readDay raw := by
  cases place with
  | value =>
    refine ⟨[], .equals, [], .value, fun raw => ?_⟩
    simp only [fill, resolveConditions, resolveScalar_text]
    cases readDay raw <;> rfl
  | element before after =>
    obtain ⟨l, hl, -⟩ := bind_eq_ok.mp h
    obtain ⟨bs, as, hbs, has, hlist⟩ := resolveList_open hl
    refine ⟨[], .oneOf bs as, [], .element hbs has, fun raw => ?_⟩
    simp only [fill, resolveConditions, hlist]
    cases readDay raw <;> rfl
  | operand op others =>
    obtain ⟨⟨condition, hcondition⟩, before, after, haround⟩ := resolveConditions_openOperators h
    obtain ⟨slot, hslot, hopen⟩ := resolveOperator_open hcondition others
    refine ⟨before, slot, after, hslot, fun raw => ?_⟩
    rw [fill, haround, hopen]
    cases readDay raw <;> rfl
  | operandElement op others first last =>
    obtain ⟨⟨condition, hcondition⟩, before, after, haround⟩ := resolveConditions_openOperators h
    obtain ⟨slot, hslot, hopen⟩ := resolveOperator_openList hcondition others
    refine ⟨before, slot, after, hslot, fun raw => ?_⟩
    rw [fill, haround, hopen]
    cases readDay raw <;> rfl

/-! ## Requests -/

namespace QueryRequest

variable {c : Catalog} {maxLimit : Int} {r : QueryRequest} {q : ResolvedQuery}

/-- The request with one filter more, or in place of that on the same field. -/
def withFilter (field : String) (input : FilterInput) (r : QueryRequest) : QueryRequest :=
  { r with filters := r.filters.insert field input }

/-- If a request with some filter on a field resolves, then with another filter on that field it
resolves to the same query with what this filter resolves to, between what the others do. -/
theorem resolve_withFilter {field : String} {input : FilterInput}
    (h : (r.withFilter field input).resolve c maxLimit = .ok q) :
    (∃ filters, resolveFilter c field input = .ok filters) ∧
      ∃ before after, ∀ input, (r.withFilter field input).resolve c maxLimit =
        (fun filters => { q with filters := before ++ filters ++ after }) <$>
          resolveFilter c field input := by
  have hresolves := resolve_eq_ok.mp h
  -- The entries of the filters are those around the field, whatever the filter on it is.
  obtain ⟨first, last, hentries⟩ := Dictionary.exists_insertEntry_eq field r.filters.entries
  obtain ⟨groups, hgroups, -⟩ := hresolves.filters
  have hgroups : (first ++ (field, input) :: last).mapM
      (fun f => resolveFilter c f.1 f.2) = .ok groups := by
    rw [← hentries]
    exact hgroups
  obtain ⟨before, after, -, -, haround⟩ := mapM_around hgroups
  refine ⟨exists_of_mem_of_mapM hgroups (List.mem_append_right first List.mem_cons_self),
    before.flatten, after.flatten, fun input' => ?_⟩
  have hinserted : (r.filters.insert field input').entries = first ++ (field, input') :: last :=
    hentries input'
  have hother := hresolves.resolve_filters (r.filters.insert field input')
  rw [hinserted, haround] at hother
  refine hother.trans ?_
  cases resolveFilter c field input' with
  | error fault => rfl
  | ok filters => simp [Functor.map, Except.map]

/-- If a request with a filter on a date field resolves with some text in the open place of the
filter, every text resolves to the same query with the day that it is read as. -/
theorem resolve_fill {field : String} {target : FilterField} {place : OpenFilter} {raw : String}
    (htarget : c.filterField? field = some target) (hkind : target.kind = .date)
    (h : (r.withFilter field (place.fill raw)).resolve c maxLimit = .ok q) :
    ∃ before slot after, place.StandsFor slot ∧
      ∀ raw, (r.withFilter field (place.fill raw)).resolve c maxLimit =
        (fun d => { q with filters := before ++ ⟨field, slot.fill (.date d)⟩ :: after }) <$>
          (readDay raw).mapError (.filterValue field) := by
  have hfield (input : FilterInput) : resolveFilter c field input =
      List.map (Filter.mk field) <$>
        (resolveConditions .date input).mapError (.filterValue field) := by
    rw [resolveFilter, htarget]
    dsimp only
    rw [hkind]
    cases resolveConditions .date input <;> rfl
  obtain ⟨⟨filters, hfilters⟩, first, last, haround⟩ := resolve_withFilter h
  rw [hfield] at hfilters
  obtain ⟨conditions, hconditions, -⟩ := map_eq_ok.mp hfilters
  obtain ⟨before, slot, after, hslot, hfill⟩ :=
    OpenFilter.resolveConditions_fill (mapError_eq_ok.mp hconditions)
  refine ⟨first ++ before.map (Filter.mk field), slot, after.map (Filter.mk field) ++ last, hslot,
    fun raw' => ?_⟩
  rw [haround, hfield, hfill]
  cases readDay raw' with
  | error fault => rfl
  | ok d => simp [Functor.map, Except.map, Except.mapError]

end QueryRequest

end SalesQuery
