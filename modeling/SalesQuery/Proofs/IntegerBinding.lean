import SalesQuery.Catalog.Restaurant
import SalesQuery.Proofs.Admissibility
import SalesQuery.Proofs.NumberText
import SalesQuery.Proofs.StatementText

/-!
# What integers are bound as

An integer of a filter takes two steps before it is bound. The scanner reads a numeral without
fraction and exponent as an integer if the value fits 64 bits, signed or unsigned
(`Json.Numeral.number?_eq_int_iff`), and as a double if not. Then an integer of 64 bits with a sign
is bound as it is, and any other as the nearest double. What has been read as an integer is never
refused for its size: from `2^63` on, it is bound as a double, which may be another number
(`integers_bound`).
-/

namespace SalesQuery

open Json (Value Number Numeral)

/-! ## Reading -/

namespace Json.Numeral

/-- More digits make no smaller number. -/
theorem le_foldl_digits (start : Nat) (digits : List Nat) :
    start ≤ digits.foldl (fun n d => 10 * n + d) start := by
  induction digits generalizing start with
  | nil => exact Nat.le_refl start
  | cons d digits ih =>
    calc start ≤ 10 * start + d := by omega
      _ ≤ (d :: digits).foldl (fun n d => 10 * n + d) start := ih (10 * start + d)

/-- The significand takes in all digits before the point exactly if their value fits 64 bits, and
then it is their value. -/
theorem wholePart_eq_iff {significand k : Nat} {digits : List Nat} (h : significand < 2 ^ 64) :
    wholePart significand digits = (k, 0) ↔
      digits.foldl (fun n d => 10 * n + d) significand = k ∧ k < 2 ^ 64 := by
  induction digits generalizing significand with
  | nil =>
    simp only [wholePart, List.foldl_nil, Prod.mk.injEq, and_true]
    exact ⟨fun heq => ⟨heq, heq ▸ h⟩, fun heq => heq.1⟩
  | cons d digits ih =>
    have hpow : Nat.pow 2 64 = 2 ^ 64 := rfl
    rw [wholePart, extend?, List.foldl_cons, hpow]
    by_cases hfits : 10 * significand + d < 2 ^ 64
    · rw [if_pos hfits]
      exact ih hfits
    · -- The digits that are left out cannot make the number small again.
      have hle := le_foldl_digits (10 * significand + d) digits
      rw [if_neg hfits]
      simp only [Prod.mk.injEq, Nat.succ_ne_zero, and_false, false_iff, not_and]
      omega

/-- A numeral of digits only is read as an integer exactly if their value fits 64 bits, and with a
minus sign if it is also from one to `2^63`. -/
theorem number?_whole_iff {a : Numeral} {k : Int} (hfraction : a.fraction = [])
    (hexponent : a.exponent = none) :
    a.number? = some (.int k) ↔
      (Text.ofDigits a.whole < 2 ^ 64 ∧
        (a.negative → 0 < Text.ofDigits a.whole ∧ Text.ofDigits a.whole ≤ 2 ^ 63)) ∧
        (if a.negative then -(Text.ofDigits a.whole : Int) else Text.ofDigits a.whole) = k := by
  have hpow : Nat.pow 2 63 = 2 ^ 63 := rfl
  have hdouble (f : Binary64 → Binary64) (x : Option Binary64) :
      x.map (fun x => Number.float (f x)) = some (.int k) ↔ False := by
    cases x <;> simp
  have hwhole (m : Nat) : wholePart 0 a.whole = (m, 0) ↔ Text.ofDigits a.whole = m ∧ m < 2 ^ 64 :=
    wholePart_eq_iff (by omega)
  rw [number?]
  rcases hpart : wholePart 0 a.whole with ⟨significand, dropped⟩
  rw [hpart] at hwhole
  simp only [hfraction, hexponent, hpow, List.isEmpty_nil, true_and]
  split
  · rename_i hread
    obtain ⟨rfl, hsign⟩ := hread
    obtain ⟨rfl, hfits⟩ := (hwhole significand).mp rfl
    rw [Option.some.injEq, Number.int.injEq]
    exact (and_iff_right ⟨hfits, hsign⟩).symm
  · rename_i hread
    rw [hdouble, false_iff]
    rintro ⟨⟨hfits, hsign⟩, -⟩
    -- Digits whose value fits would all have been taken in.
    obtain ⟨rfl, rfl⟩ := Prod.mk.inj ((hwhole _).mpr ⟨rfl, hfits⟩)
    exact hread ⟨rfl, hsign⟩

/-- The numeral of an integer is read as that integer exactly if it fits 64 bits, signed or
unsigned, and is no zero with a minus sign. Otherwise it is not read as an integer. -/
theorem number?_eq_int_iff {a : Numeral} {n k : Int} (h : a.StandsFor (.int n)) :
    a.number? = some (.int k) ↔
      k = n ∧ (-2 ^ 63 ≤ n ∧ n < 2 ^ 64) ∧ (a.negative → n ≠ 0) := by
  obtain ⟨⟨hfraction, hexponent⟩, hn⟩ := h
  rw [number?_whole_iff hfraction hexponent, ← hn]
  cases hneg : a.negative with
  | false =>
    have hvalue : n = Text.ofDigits a.whole := by simpa [hneg] using hn
    simp only [Bool.false_eq_true, false_imp_iff, and_true]
    omega
  | true =>
    have hvalue : n = -(Text.ofDigits a.whole : Int) := by simpa [hneg] using hn
    simp only [forall_const]
    omega

end Json.Numeral

/-! ## Binding -/

/-- The values that the operand of an operator brings: those of a list, or the operand. -/
def operandValues : Value → List Value
  | .array items => items
  | v => [v]

/-- The values that a filter brings, in order. -/
def FilterInput.values : FilterInput → List Value
  | .scalar v => [v]
  | .list values => values
  | .operators ops => ops.entries.flatMap fun entry => operandValues entry.2

/-- The values that the filters of a request bring, in order. -/
def QueryRequest.filterValues (r : QueryRequest) : List Value :=
  r.filters.entries.flatMap fun entry => entry.2.values

/-- A value is bound as a scalar on some field. -/
def BindsAs (v : Value) (s : Scalar) : Prop := ∃ kind : ValueKind, kind.Binds v s

/-- How integers are bound. -/
structure BindsInteger (v : Value) (s : Scalar) : Prop where
  /-- An integer of 64 bits with a sign is bound as it is. -/
  exact_of_fits : ∀ n, v = .number (.int n) → Text.fitsInt64 n = true → s = .int n
  /-- Any other integer is bound as the nearest double. -/
  double_of_wide : ∀ n, v = .number (.int n) → Text.fitsInt64 n = false → s = .float (.ofInt n)
  /-- Nothing else is bound as an integer. -/
  only : ∀ n, s = .int n → v = .number (.int n)

/-- An integer is bound as it is. -/
def KeepsInteger (v : Value) (s : Scalar) : Prop := ∀ n, v = .number (.int n) → s = .int n

/-- Whatever the field, integers are bound by these rules. -/
theorem BindsAs.bindsInteger {v : Value} {s : Scalar} (h : BindsAs v s) : BindsInteger v s := by
  obtain ⟨kind, h⟩ := h
  cases h with
  | int hfits =>
    refine ⟨fun n hn _ => ?_, fun n hn hwide => ?_, fun n hn => ?_⟩
    · cases hn
      rfl
    · cases hn
      exact absurd (hfits.symm.trans hwide) (by decide)
    · cases hn
      rfl
  | wide hwide =>
    refine ⟨fun n hn hfits => ?_, fun n hn _ => ?_, nofun⟩
    · cases hn
      exact absurd (hfits.symm.trans hwide) (by decide)
    · cases hn
      rfl
  | _ => exact ⟨nofun, nofun, nofun⟩

/-- An integer is kept exactly if it fits 64 bits with a sign. -/
theorem BindsInteger.keepsInteger_iff {v : Value} {s : Scalar} (h : BindsInteger v s) :
    KeepsInteger v s ↔ ∀ n, v = .number (.int n) → Text.fitsInt64 n = true := by
  constructor
  · intro hkeeps n hn
    by_contra hwide
    have hdouble := h.double_of_wide n hn (Bool.eq_false_iff.mpr hwide)
    rw [hkeeps n hn] at hdouble
    cases hdouble
  · intro hfits n hn
    exact h.exact_of_fits n hn (hfits n hn)

/-- The operand of an operator brings the values that its condition binds. -/
theorem ValueKind.BindsOperator.bindsAs {kind : ValueKind} {op : String} {v : Value}
    {condition : FilterCondition} (h : kind.BindsOperator op v condition) :
    List.Forall₂ BindsAs (operandValues v) condition.values := by
  -- A value that is bound is no list, so as an operand it is the only value.
  have hone {v : Value} {s : Scalar} (h : kind.Binds v s) :
      List.Forall₂ BindsAs (operandValues v) [s] := by
    have hvalues : operandValues v = [v] := by cases h <;> rfl
    rw [hvalues]
    exact .cons ⟨kind, h⟩ .nil
  cases h with
  | equals _ h => exact hone h
  | oneOf _ h => exact h.2.imp fun _ _ hs => ⟨kind, hs⟩
  | compare _ _ h => exact hone h

/-- A filter brings the values that its conditions bind. -/
theorem FilterInput.StandsFor.bindsAs {kind : ValueKind} {input : FilterInput}
    {conditions : List FilterCondition} (h : input.StandsFor kind conditions) :
    List.Forall₂ BindsAs input.values (conditions.flatMap FilterCondition.values) := by
  cases h with
  | scalar h => exact .cons ⟨kind, h⟩ .nil
  | list h =>
    rw [List.flatMap_cons, List.flatMap_nil, List.append_nil]
    exact h.2.imp fun _ _ hs => ⟨kind, hs⟩
  | operators _ h => exact List.rel_flatMap h fun _ _ hop => hop.bindsAs

/-- A request brings the values that the filters of its query bind. -/
theorem QueryRequest.StandsFor.bindsAs {c : Catalog} {r : QueryRequest} {q : ResolvedQuery}
    (h : r.StandsFor c q) :
    List.Forall₂ BindsAs r.filterValues (q.filters.flatMap fun f => f.condition.values) := by
  obtain ⟨groups, hfilters, hgroups⟩ := h.filters
  have hentry (entry : String × FilterInput) (filters : List Filter)
      (hfor : entry.2.StandsForOn c entry.1 filters) :
      List.Forall₂ BindsAs entry.2.values (filters.flatMap fun f => f.condition.values) := by
    obtain ⟨target, conditions, -, hconditions, rfl⟩ := hfor
    rw [List.flatMap_map]
    exact hconditions.bindsAs
  have hvalues : (q.filters.flatMap fun f => f.condition.values) =
      groups.flatMap fun filters => filters.flatMap fun f => f.condition.values := by
    rw [hfilters, List.flatten_eq_flatMap, List.flatMap_assoc]
    rfl
  rw [hvalues, filterValues]
  exact List.rel_flatMap hgroups fun entry filters => hentry entry filters

/-- What a query binds are the bounds of its days and then the values of its filters. -/
theorem QueryRequest.params_bindAs {c : Catalog} {maxLimit : Int} {r : QueryRequest}
    {q : ResolvedQuery} {out : CompiledQuery} (hq : r.resolve c maxLimit = .ok q)
    (hout : q.compile c = .ok out) :
    ∃ bound, out.params = (r.dateRange.map DateRange.values).getD [] ++ bound ∧
      List.Forall₂ BindsAs r.filterValues bound := by
  have hfor : r.StandsFor c q := (resolve_eq_ok.mp hq).standsFor
  obtain ⟨s, hs, rfl⟩ := ResolvedQuery.compile_eq_ok.mp hout
  have hparams : s.compiled.params = q.values := by
    calc s.compiled.params = s.predicates.flatMap Predicate.values := s.filterMap_fragments
      _ = q.values := hs.values
  refine ⟨_, ?_, hfor.bindsAs⟩
  rw [hparams, ResolvedQuery.values, hfor.dateRange]

/-- All integers are kept exactly if each fits 64 bits with a sign. -/
theorem forall₂_keepsInteger_iff {values : List Value} {bound : List Scalar}
    (h : List.Forall₂ BindsInteger values bound) :
    List.Forall₂ KeepsInteger values bound ↔
      ∀ n, .number (.int n) ∈ values → Text.fitsInt64 n = true := by
  induction h with
  | nil => exact ⟨fun _ _ hn => absurd hn List.not_mem_nil, fun _ => .nil⟩
  | cons hvalue _ ih =>
    rw [List.forall₂_cons, ih, hvalue.keepsInteger_iff]
    simp only [List.mem_cons, or_imp, forall_and, eq_comm]

/-- An integer is read and bound as it is if it fits 64 bits with a sign. Beyond these bounds, one
that is read is not refused, but bound as a double. So a request that is accepted keeps all its
integers exactly if none of them is beyond the bounds. -/
theorem integers_bound (c : Catalog) (maxLimit : Int) :
    (∀ (a : Numeral) (n k : Int), a.StandsFor (.int n) →
      (a.number? = some (.int k) ↔
        k = n ∧ (-2 ^ 63 ≤ n ∧ n < 2 ^ 64) ∧ (a.negative → n ≠ 0))) ∧
    (∀ n : Int, ∃ s, resolveScalar .any (.number (.int n)) = .ok s) ∧
    ∀ (r : QueryRequest) (q : ResolvedQuery) (out : CompiledQuery),
      r.resolve c maxLimit = .ok q → q.compile c = .ok out →
      ∃ bound, out.params = (r.dateRange.map DateRange.values).getD [] ++ bound ∧
        List.Forall₂ BindsInteger r.filterValues bound ∧
        (List.Forall₂ KeepsInteger r.filterValues bound ↔
          ∀ n, .number (.int n) ∈ r.filterValues → Text.fitsInt64 n = true) := by
  refine ⟨fun _ _ _ h => Numeral.number?_eq_int_iff h, fun n => ?_, fun r q out hq hout => ?_⟩
  · have haccepts : ValueKind.any.Accepts (.number (.int n)) := ⟨nofun, nofun, nofun⟩
    obtain ⟨s, hs⟩ := ValueKind.accepts_iff.mp haccepts
    exact ⟨s, resolveScalar_eq_ok.mpr hs⟩
  · obtain ⟨bound, hparams, hbound⟩ := QueryRequest.params_bindAs hq hout
    have hintegers : List.Forall₂ BindsInteger r.filterValues bound :=
      hbound.imp fun _ _ h => h.bindsInteger
    exact ⟨bound, hparams, hintegers, forall₂_keepsInteger_iff hintegers⟩

/-- A request with the greatest and the least integer of 64 bits. -/
def revenueAtBounds : QueryRequest where
  metrics := ["faturamento"]
  filters := .ofList [("store_id", .list [.int 7, .int 9223372036854775807]),
    ("customer_id", .operators (.ofList [("gte", .int (-9223372036854775808)),
      ("in", .array [.int 12])]))]

/-- The request with the greatest and the least integer, resolved. -/
def revenueAtBoundsQuery : ResolvedQuery where
  dimensions := []
  metrics := [.catalog "faturamento"]
  filters := [⟨"customer_id", .compare .gte (.int (-9223372036854775808))⟩,
    ⟨"customer_id", .oneOf [.int 12]⟩, ⟨"store_id", .oneOf [.int 7, .int 9223372036854775807]⟩]
  dateRange := none
  orderBy := []
  limit := none
  offset := none

/-- These integers are kept, and the least one is read from its text. -/
theorem integers_bound_at_bounds :
    Numeral.number? ⟨true, [9, 2, 2, 3, 3, 7, 2, 0, 3, 6, 8, 5, 4, 7, 7, 5, 8, 0, 8], [], none⟩ =
        some (.int (-9223372036854775808)) ∧
      revenueAtBounds.resolve Catalog.restaurant 1000 = .ok revenueAtBoundsQuery ∧
      ∃ out, revenueAtBoundsQuery.compile Catalog.restaurant = .ok out ∧
        List.Forall₂ KeepsInteger revenueAtBounds.filterValues out.params := by
  obtain ⟨hread, -, hbound⟩ := integers_bound Catalog.restaurant 1000
  refine ⟨(hread _ (-9223372036854775808) _ ⟨⟨rfl, rfl⟩, by decide +kernel⟩).mpr (by simp), ?_⟩
  have hq : revenueAtBounds.resolve Catalog.restaurant 1000 = .ok revenueAtBoundsQuery := by
    decide +kernel
  obtain ⟨out, hout⟩ : ∃ out, revenueAtBoundsQuery.compile Catalog.restaurant = .ok out :=
    exists_of_isOk (by decide +kernel)
  obtain ⟨bound, hparams, -, hkeeps⟩ := hbound revenueAtBounds revenueAtBoundsQuery out hq hout
  have hvalues : revenueAtBounds.filterValues =
      [.int (-9223372036854775808), .int 12, .int 7, .int 9223372036854775807] := rfl
  have hfits : ∀ n, Value.number (.int n) ∈ revenueAtBounds.filterValues →
      Text.fitsInt64 n = true := by
    intro n hn
    rw [hvalues] at hn
    simp only [Value.int, List.mem_cons, List.not_mem_nil, or_false, Value.number.injEq,
      Number.int.injEq] at hn
    rcases hn with rfl | rfl | rfl | rfl <;> decide
  refine ⟨hq, out, hout, ?_⟩
  rw [hparams]
  exact hkeeps.mpr hfits

/-- A request for the revenue of a customer whose number does not fit 64 bits with a sign. -/
def revenueOfCustomer : QueryRequest where
  metrics := ["faturamento"]
  filters := .ofList [("customer_id", .scalar (.int 9223372036854775809))]

/-- The request for the revenue of a customer, resolved. -/
def revenueOfCustomerQuery : ResolvedQuery where
  dimensions := []
  metrics := [.catalog "faturamento"]
  filters := [⟨"customer_id", .equals (.float (.ofInt 9223372036854775808))⟩]
  dateRange := none
  orderBy := []
  limit := none
  offset := none

/-- The request is accepted, and asks for the revenue of another customer: the number is bound as a
double, which is one less. -/
theorem customer_replaced :
    revenueOfCustomer.resolve Catalog.restaurant 1000 = .ok revenueOfCustomerQuery ∧
      ∃ out, revenueOfCustomerQuery.compile Catalog.restaurant = .ok out ∧
        out.params = [.float (.ofInt 9223372036854775808)] ∧
        ¬ List.Forall₂ KeepsInteger revenueOfCustomer.filterValues out.params := by
  have hq : revenueOfCustomer.resolve Catalog.restaurant 1000 = .ok revenueOfCustomerQuery := by
    decide +kernel
  obtain ⟨out, hout⟩ : ∃ out, revenueOfCustomerQuery.compile Catalog.restaurant = .ok out :=
    exists_of_isOk (by decide +kernel)
  have hparams : out.params = [.float (.ofInt 9223372036854775808)] := by
    have hcompiled : (revenueOfCustomerQuery.compile Catalog.restaurant).toOption.map
        CompiledQuery.params = some [.float (.ofInt 9223372036854775808)] := by
      decide +kernel
    rw [hout] at hcompiled
    exact Option.some.inj hcompiled
  have hvalues : revenueOfCustomer.filterValues = [.int 9223372036854775809] := rfl
  refine ⟨hq, out, hout, hparams, fun hkeeps => ?_⟩
  rw [hvalues, hparams] at hkeeps
  obtain ⟨hkept, -⟩ := List.forall₂_cons.mp hkeeps
  cases hkept 9223372036854775809 rfl

end SalesQuery
