import Mathlib.Algebra.Group.Action.Defs
import Mathlib.Data.List.Nodup
import SalesQuery.Proofs.IntegerBinding
import SalesQuery.Proofs.MissingEntries
import SalesQuery.Proofs.RequestJson

/-!
# How many parameters a query can have

A list of values is cut off at two hundred, but the operators of a filter are entries of a
dictionary whose names may be in any case, so one filter can have several lists. It cannot have
arbitrarily many: a word of `n` letters has `2 ^ n` spellings (`mem_spellings`), and no spelling is
given twice. So the filter of a field has at most four lists and twenty-eight other operators
(`countP_operators_le`). The fields are names of the catalog, each given once, and all other
parameters are the bounds of the days (`QueryRequest.params_bounded`).
-/

namespace SalesQuery

open Json (Value)

/-! ## Counting -/

section Counting

variable {α β : Type}

/-- Among elements that are not repeated, there are no more of a kind than among all there are. -/
theorem countP_le_of_nodup [DecidableEq α] {l m : List α} (p : α → Bool) (hl : l.Nodup)
    (h : l ⊆ m) : l.countP p ≤ m.countP p :=
  (List.subperm_of_subset hl h).countP_le p

/-- If what each element brings is bounded, so is what all of them bring. -/
theorem length_flatMap_le {l : List α} {f : α → List β} {b : ℕ}
    (h : ∀ x ∈ l, (f x).length ≤ b) : (l.flatMap f).length ≤ b * l.length := by
  have hsum := List.sum_le_card_nsmul (l.map fun x => (f x).length) b (List.forall_mem_map.mpr h)
  rwa [← List.length_flatMap, List.length_map, smul_eq_mul, Nat.mul_comm] at hsum

/-- If what elements bring is bounded by their kind, so is what all of them bring. -/
theorem length_flatMap_le_of_kinds {l : List α} {f : α → List β} {p : α → Bool} {a b : ℕ}
    (h : ∀ x ∈ l, (f x).length ≤ if p x then a else b) :
    (l.flatMap f).length ≤ a * l.countP p + b * l.countP fun x => !p x := by
  induction l with
  | nil => simp
  | cons x l ih =>
    obtain ⟨hx, hl⟩ := List.forall_mem_cons.mp h
    have hrest := ih hl
    rw [List.flatMap_cons, List.length_append, List.countP_cons, List.countP_cons, Nat.mul_add,
      Nat.mul_add]
    cases hp : p x with
    | true =>
      rw [hp, if_pos rfl] at hx
      simp only [Bool.not_true, Bool.false_eq_true, if_true, if_false]
      omega
    | false =>
      rw [hp, if_neg nofun] at hx
      simp only [Bool.not_false, Bool.false_eq_true, if_true, if_false]
      omega

end Counting

/-! ## Spellings -/

/-- The texts that are a word with each of its letters in lower or in upper case. -/
def spellings : List Char → List (List Char)
  | [] => [[]]
  | c :: word => (spellings word).flatMap fun rest => [c :: rest, c.toUpper :: rest]

/-- A character is its lower case or the upper case of that. -/
theorem eq_toLower_or_eq_toUpper (c : Char) : c = c.toLower ∨ c = c.toLower.toUpper := by
  by_cases hupper : 'A' ≤ c ∧ c ≤ 'Z'
  · right
    have hletter : ∀ n < 91, 65 ≤ n → Char.ofNat n = (Char.ofNat n).toLower.toUpper := by decide
    have hle : ∀ {d e : Char}, d ≤ e → d.toNat ≤ e.toNat := UInt32.le_iff_toNat_le.mp
    have h := hletter c.toNat (Nat.lt_succ_of_le (hle hupper.2)) (hle hupper.1)
    rwa [Char.ofNat_toNat] at h
  · left
    have hlower : ¬ (c.val ≥ 'A'.val ∧ c.val ≤ 'Z'.val) := hupper
    delta Char.toLower
    rw [dif_neg hlower]

/-- A text is one of the spellings of its lower case. -/
theorem mem_spellings (l : List Char) : l ∈ spellings (l.map Char.toLower) := by
  induction l with
  | nil => exact List.mem_singleton_self _
  | cons c l ih =>
    refine List.mem_flatMap.mpr ⟨l, ih, ?_⟩
    rw [List.mem_pair]
    rcases eq_toLower_or_eq_toUpper c with h | h
    · exact .inl (by rw [← h])
    · exact .inr (by rw [← h])

/-! ## Operators -/

/-- The names of operators, in every case. -/
def operatorNames : List String :=
  ["eq", "in", "gt", "gte", "lt", "lte"].flatMap fun word =>
    (spellings word.toList).map String.ofList

/-- A text with the letters of a name in lower case is one of the names. -/
theorem mem_operatorNames {op word : String} (hword : word ∈ ["eq", "in", "gt", "gte", "lt", "lte"])
    (h : Text.SameLetters op word) : op ∈ operatorNames := by
  have hlower : ∀ word ∈ ["eq", "in", "gt", "gte", "lt", "lte"],
      Text.lowerAscii word = word := by decide
  have hchars : op.toList.map Char.toLower = word.toList := by
    have heq : Text.lowerAscii op = word := h.trans (hlower word hword)
    rw [← heq, Text.lowerAscii, String.toList_ofList]
  refine List.mem_flatMap.mpr ⟨word, hword, List.mem_map.mpr ⟨op.toList, ?_, String.ofList_toList⟩⟩
  rw [← hchars]
  exact mem_spellings op.toList

/-- The operator takes a list. -/
def takesList (op : String) : Bool := Text.SameLetters op "in"

variable {kind : ValueKind}

/-- An operator that stands for a condition has one of the names. -/
theorem ValueKind.BindsOperator.mem_operatorNames {op : String} {v : Value}
    {condition : FilterCondition} (h : kind.BindsOperator op v condition) :
    op ∈ operatorNames := by
  cases h with
  | equals hop _ => exact SalesQuery.mem_operatorNames (by simp) hop
  | oneOf hop _ => exact SalesQuery.mem_operatorNames (by simp) hop
  | @compare _ s c hc hop _ =>
    refine SalesQuery.mem_operatorNames ?_ hop
    cases c <;> simp [Comparison.name]

/-- It brings one value, or up to two hundred if it takes a list. -/
theorem ValueKind.BindsOperator.length_operandValues {op : String} {v : Value}
    {condition : FilterCondition} (h : kind.BindsOperator op v condition) :
    (operandValues v).length ≤ if takesList op then 200 else 1 := by
  have hone {v : Value} {s : Scalar} (h : kind.Binds v s) :
      (operandValues v).length ≤ if takesList op then 200 else 1 := by
    have hlength : (operandValues v).length = 1 := by cases h <;> rfl
    rw [hlength]
    split <;> decide
  cases h with
  | equals _ h => exact hone h
  | oneOf hop h =>
    rw [takesList, if_pos (decide_eq_true hop)]
    exact h.1
  | compare _ _ h => exact hone h

/-- A filter has at most four operators that take a list and twenty-eight others. -/
theorem countP_operators_le {ops : Dictionary Value} {conditions : List FilterCondition}
    (h : List.Forall₂ (fun entry => kind.BindsOperator entry.1 entry.2) ops.entries conditions) :
    (ops.entries.countP fun entry => takesList entry.1) ≤ 4 ∧
      (ops.entries.countP fun entry => !takesList entry.1) ≤ 28 := by
  -- The names of the operators are distinct, so there are no more of a kind than names of the kind.
  have hnodup : (ops.entries.map (·.1)).Nodup := Dictionary.nodup_of_keysAscend ops.keysAscend
  have hsubset : ops.entries.map (·.1) ⊆ operatorNames := by
    intro op hop
    obtain ⟨entry, hentry, rfl⟩ := List.mem_map.mp hop
    obtain ⟨condition, hcondition⟩ := exists_forall₂_iff.mp ⟨conditions, h⟩ entry hentry
    exact hcondition.mem_operatorNames
  have hcount (p : String → Bool) :
      (ops.entries.countP fun entry => p entry.1) ≤ operatorNames.countP p := by
    rw [show (fun entry : String × Value => p entry.1) = p ∘ (·.1) from rfl, ← List.countP_map]
    exact countP_le_of_nodup p hnodup hsubset
  have hlists : operatorNames.countP takesList = 4 := by decide +kernel
  have hothers : (operatorNames.countP fun op => !takesList op) = 28 := by decide +kernel
  exact ⟨hlists ▸ hcount takesList, hothers ▸ hcount fun op => !takesList op⟩

/-- So a filter brings at most 828 values. -/
theorem FilterInput.StandsFor.length_values_le {input : FilterInput}
    {conditions : List FilterCondition} (h : input.StandsFor kind conditions) :
    input.values.length ≤ 828 := by
  cases h with
  | scalar h => exact Nat.le_of_ble_eq_true rfl
  | list h => exact h.1.trans (by decide)
  | @operators ops _ _ h =>
    obtain ⟨hlists, hothers⟩ := countP_operators_le h
    have hbound : ∀ entry ∈ ops.entries,
        (operandValues entry.2).length ≤ if takesList entry.1 then 200 else 1 := by
      intro entry hentry
      obtain ⟨condition, hcondition⟩ := exists_forall₂_iff.mp ⟨_, h⟩ entry hentry
      exact hcondition.length_operandValues
    calc (ops.entries.flatMap fun entry => operandValues entry.2).length
      _ ≤ _ := length_flatMap_le_of_kinds hbound
      _ ≤ 828 := by omega

/-! ## Queries -/

/-- The names that may be filtered on, each once: those of dimensions and of filter columns. -/
def Catalog.filterNames (c : Catalog) : List String :=
  (c.dimensions.map (·.name) ++ c.filterColumns.map (·.name)).eraseDups

/-- A name that stands for something to filter on is one of them. -/
theorem Catalog.mem_filterNames {c : Catalog} {name : String} {target : FilterField}
    (h : c.filterField? name = some target) : name ∈ c.filterNames := by
  rw [filterNames, List.mem_eraseDups, List.mem_append, List.mem_map, List.mem_map]
  rw [filterField?] at h
  split at h
  · rename_i d hd
    exact .inl ⟨d, List.mem_of_find?_eq_some hd, by simpa using List.find?_some hd⟩
  · obtain ⟨column, hcolumn, -⟩ := Option.map_eq_some_iff.mp h
    exact .inr ⟨column, List.mem_of_find?_eq_some hcolumn, by simpa using List.find?_some hcolumn⟩

/-- How many parameters one statement can have in the database. -/
def statementCapacity : ℕ := 65535

namespace QueryRequest

variable {c : Catalog} {maxLimit : Int} {r : QueryRequest} {q : ResolvedQuery}

/-- The filters of a request that stands for a query are on different names of the catalog, and
bring at most 828 values each. -/
theorem StandsFor.length_filterValues_le (h : r.StandsFor c q) :
    r.filters.entries.length ≤ c.filterNames.length ∧
      ∀ entry ∈ r.filters.entries, entry.2.values.length ≤ 828 := by
  obtain ⟨groups, -, hgroups⟩ := h.filters
  have hentry := exists_forall₂_iff.mp ⟨groups, hgroups⟩
  constructor
  · have hnodup := Dictionary.nodup_of_keysAscend r.filters.keysAscend
    have hsubset : r.filters.entries.map (·.1) ⊆ c.filterNames := by
      intro field hfield
      obtain ⟨entry, hmem, rfl⟩ := List.mem_map.mp hfield
      obtain ⟨_, target, _, htarget, -⟩ := hentry entry hmem
      exact Catalog.mem_filterNames htarget
    simpa using (List.subperm_of_subset hnodup hsubset).length_le
  · intro entry hmem
    obtain ⟨_, _, _, _, hconditions, -⟩ := hentry entry hmem
    exact hconditions.length_values_le

/-- A request that is accepted compiles to a statement with as many parameters as it has bounds of
days and values of filters. No filter brings more than four lists of two hundred and twenty-eight
single values, and there are no more filters than names to filter on. So the number of parameters is
bounded, and with the restaurant catalog it is far from what a statement can have. -/
theorem params_bounded (hc : c.Consistent) (hq : r.resolve c maxLimit = .ok q) :
    ∃ out, q.compile c = .ok out ∧
      out.params.length =
        ((r.dateRange.map DateRange.values).getD []).length + r.filterValues.length ∧
      r.filters.entries.length ≤ c.filterNames.length ∧
      (∀ entry ∈ r.filters.entries, entry.2.values.length ≤ 4 * 200 + 28) ∧
      out.params.length ≤ 2 + 828 * c.filterNames.length ∧
      (c = Catalog.restaurant →
        out.params.length ≤ 18218 ∧ out.params.length < statementCapacity) := by
  have hresolves := resolve_eq_ok.mp hq
  -- It compiles, since whatever a compilation can lack is looked up before.
  obtain ⟨out, hout⟩ : ∃ out, q.compile c = .ok out := by
    rw [← fault?_eq_none, ResolvedQuery.fault?_compile (Catalog.consistent_iff.mp hc),
      List.find?_eq_none]
    exact hresolves.not_lacks
  -- Each value of a filter is bound once, after the days.
  obtain ⟨bound, hparams, hbound⟩ := params_bindAs hq hout
  obtain ⟨hfields, hvalues⟩ := hresolves.standsFor.length_filterValues_le
  have hlength : out.params.length =
      ((r.dateRange.map DateRange.values).getD []).length + r.filterValues.length := by
    rw [hparams, List.length_append, hbound.length_eq]
  have hdays : ((r.dateRange.map DateRange.values).getD []).length ≤ 2 := by
    cases r.dateRange with
    | none => decide
    | some range =>
      obtain ⟨start, stop⟩ := range
      cases start <;> cases stop <;> simp [DateRange.values]
  have htotal : r.filterValues.length ≤ 828 * c.filterNames.length :=
    calc r.filterValues.length
      _ ≤ 828 * r.filters.entries.length := length_flatMap_le hvalues
      _ ≤ 828 * c.filterNames.length := Nat.mul_le_mul_left 828 hfields
  have hall : out.params.length ≤ 2 + 828 * c.filterNames.length := by omega
  refine ⟨out, hout, hlength, hfields, hvalues, hall, fun hrestaurant => ?_⟩
  have hnames : Catalog.restaurant.filterNames.length = 22 := by decide +kernel
  rw [hrestaurant, hnames] at hall
  exact ⟨hall, Nat.lt_of_le_of_lt hall (by decide)⟩

/-- A catalog with one name to filter on. -/
def stockCatalog : Catalog where
  metrics := []
  dimensions := []
  filterColumns := [{ name := "stock", expression := "s.stock" }]
  joins := []

/-- Counts the sales of one day, with every operator that a filter can have and every list as long
as it can be. -/
def everyOperator : QueryRequest where
  metrics := ["COUNT(id) AS sales"]
  filters := .ofList [("stock", .operators (.ofList (operatorNames.map fun op =>
    (op, if takesList op then .array (List.replicate 200 (.int 7)) else .int 7))))]
  dateRange := some ⟨some ⟨2024, 2, 29, by decide⟩, some ⟨2024, 2, 29, by decide⟩⟩

/-- The bound is reached: two days, four lists of two hundred values and twenty-eight values. -/
theorem params_bounded_reached :
    stockCatalog.Consistent ∧ stockCatalog.filterNames.length = 1 ∧
      ∃ q out, everyOperator.resolve stockCatalog 1000 = .ok q ∧
        q.compile stockCatalog = .ok out ∧ out.params.length = 830 ∧
        out.params.length ≤ 2 + 828 * stockCatalog.filterNames.length := by
  have hc : stockCatalog.Consistent := by
    unfold Catalog.Consistent
    decide +kernel
  obtain ⟨q, hq⟩ : ∃ q, everyOperator.resolve stockCatalog 1000 = .ok q :=
    exists_of_isOk (by decide +kernel)
  obtain ⟨out, hout, hlength, -, -, hbound, -⟩ := params_bounded hc hq
  have hvalues : everyOperator.filterValues.length = 828 := by decide +kernel
  refine ⟨hc, by decide +kernel, q, out, hq, hout, ?_, hbound⟩
  rw [hlength, hvalues]
  rfl

end QueryRequest

end SalesQuery
