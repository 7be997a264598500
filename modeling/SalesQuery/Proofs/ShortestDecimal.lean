import Mathlib.Algebra.Order.Field.Power
import Mathlib.Data.Nat.Cast.Order.Field
import Mathlib.Data.Rat.Cast.Order
import Mathlib.Tactic.FieldSimp
import Mathlib.Tactic.Linarith
import Mathlib.Tactic.Positivity
import Mathlib.Tactic.Ring
import SalesQuery.Binary64.Shortest

/-!
# The shortest decimal names its number

The shortest decimal of a finite double lies in the interval of the rationals that round to it
(`contains_shortest`): every grid is only left without a decimal if it has none in the interval, and
the last grid searched is finer than half the distance to the next number. The intervals of
different doubles have no rational in common (`eq_of_contains`): neighbours touch in one end, and
of two neighbours exactly one, the one with the even significand, holds it. So a decimal that stands
for a finite double determines it.
-/

namespace SalesQuery.Binary64

/-- The rational that a decimal denotes. -/
def Decimal.value (d : Decimal) : ℚ := d.digits * (10 : ℚ) ^ d.exponent

/-- The rational lies in the interval; the ends belong to a closed one. -/
def Interval.Contains (i : Interval) (q : ℚ) : Prop :=
  if i.closed then (i.low : ℚ) / i.den ≤ q ∧ q ≤ i.high / i.den
  else (i.low : ℚ) / i.den < q ∧ q < i.high / i.den

/-- The significand and the exponent of a finite double: below the least exponent with a leading bit
there is one exponent only. -/
structure Normalized (m : Nat) (e : Int) : Prop where
  /-- The significand has at most fifty-three bits. -/
  lt_significand : m < 2 ^ 53
  /-- The least exponent. -/
  least_le : -1074 ≤ e
  /-- The greatest exponent. -/
  le_greatest : e ≤ 971
  /-- A greater exponent than the least comes with a leading bit. -/
  leading : e = -1074 ∨ 2 ^ 52 ≤ m

/-- A finite double has a significand and an exponent of the format. -/
theorem normalized_of_meaning {x : Binary64} {s : Bool} {m : Nat} {e : Int}
    (h : x.meaning = .finite s m e) : Normalized m e := by
  have hx : x.magnitude < 2 ^ 63 := Nat.mod_lt _ (by decide)
  unfold meaning at h
  norm_num at h
  split at h
  · split at h <;> cases h
  · split at h
    · cases h
      exact ⟨by omega, by omega, by omega, .inl rfl⟩
    · cases h
      exact ⟨by omega, by omega, by omega, .inr (by omega)⟩

/-- A number that is finite means a significand and an exponent. -/
theorem exists_meaning_of_isFinite {x : Binary64} (h : x.isFinite = true) :
    ∃ s m e, x.meaning = .finite s m e := by
  have hlt : x.magnitude < 2047 * 2 ^ 52 := of_decide_eq_true h
  have hfield : x.magnitude / Nat.pow 2 52 ≠ 2047 := by
    rw [Nat.pow_eq]
    omega
  unfold meaning
  simp only [if_neg hfield]
  split
  · exact ⟨_, _, _, rfl⟩
  · exact ⟨_, _, _, rfl⟩

/-- Sign, significand and exponent determine the bits of a finite number. -/
theorem eq_of_meaning {x y : Binary64} {s : Bool} {m : Nat} {e : Int}
    (hx : x.meaning = .finite s m e) (hy : y.meaning = .finite s m e) : x = y := by
  have hbits (z : Binary64) (hz : z.meaning = .finite s m e) : z.isNegative = s ∧
      z.magnitude = if m < 2 ^ 52 then m else (e + 1074).toNat * 2 ^ 52 + m := by
    unfold meaning at hz
    norm_num at hz
    split at hz
    · split at hz <;> cases hz
    · split at hz
      · cases hz
        exact ⟨rfl, by rw [if_pos (by omega)]; omega⟩
      · cases hz
        exact ⟨rfl, by rw [if_neg (by omega)]; omega⟩
  obtain ⟨hsx, hmx⟩ := hbits x hx
  obtain ⟨hsy, hmy⟩ := hbits y hy
  have hsign : decide (Nat.pow 2 63 ≤ x.bits.toNat) = decide (Nat.pow 2 63 ≤ y.bits.toNat) :=
    hsx.trans hsy.symm
  have hmagnitude : x.bits.toNat % Nat.pow 2 63 = y.bits.toNat % Nat.pow 2 63 := hmx.trans hmy.symm
  rw [decide_eq_decide, Nat.pow_eq] at hsign
  rw [Nat.pow_eq] at hmagnitude
  have hxlt := x.bits.toNat_lt
  have hylt := y.bits.toNat_lt
  have hnat : x.bits.toNat = y.bits.toNat := by omega
  cases x
  cases y
  exact congrArg _ (UInt64.toNat_inj.mp hnat)

/-! ## Quotients and decimals -/

/-- The denominator of a quotient is positive. -/
theorem quotient_den_pos (m : Nat) (e : Int) : 0 < (quotient m e).2 := by
  unfold quotient
  split
  · exact Nat.one_pos
  · exact Nat.pow_pos (by decide)

/-- A quotient is the number that it is taken of. -/
theorem quotient_value (m : Nat) (e : Int) :
    ((quotient m e).1 : ℚ) / (quotient m e).2 = m * (2 : ℚ) ^ e := by
  unfold quotient
  split
  · rename_i h
    obtain ⟨n, rfl⟩ := Int.eq_ofNat_of_zero_le h
    simp
  · rename_i h
    obtain ⟨n, hn⟩ := Int.eq_ofNat_of_zero_le (a := -e) (by omega)
    obtain rfl : e = -(n : Int) := by omega
    simp [div_eq_mul_inv]

/-- The test for a decimal is exact. -/
theorem Interval.holds_iff {i : Interval} (hi : 0 < i.den) (d : Decimal) :
    i.holds d = true ↔ i.Contains d.value := by
  -- The decimal over the denominator of the interval, with the power of ten on either side.
  obtain ⟨num, den, hden, hvalue, hholds⟩ : ∃ num den : Nat, 0 < den ∧
      d.value * i.den = (num : ℚ) / den ∧
      i.holds d = if i.closed then decide (i.low * den ≤ num) && decide (num ≤ i.high * den)
        else decide (i.low * den < num) && decide (num < i.high * den) := by
    by_cases h : 0 ≤ d.exponent
    · refine ⟨d.digits * Nat.pow 10 d.exponent.toNat * i.den, 1, Nat.one_pos, ?_, ?_⟩
      · obtain ⟨n, hn⟩ := Int.eq_ofNat_of_zero_le h
        simp [Decimal.value, hn]
      · simp only [holds, if_pos h]
    · refine ⟨d.digits * i.den, Nat.pow 10 (-d.exponent).toNat, Nat.pow_pos (by decide), ?_, ?_⟩
      · obtain ⟨n, hn⟩ := Int.eq_ofNat_of_zero_le (a := -d.exponent) (by omega)
        have hneg : d.exponent = -(n : Int) := by omega
        simp only [Decimal.value, hneg, neg_neg, Int.toNat_natCast, Nat.pow_eq, zpow_neg,
          zpow_natCast]
        push_cast
        field_simp
      · simp only [holds, if_neg h]
  have hiq : (0 : ℚ) < i.den := by exact_mod_cast hi
  have hdq : (0 : ℚ) < den := by exact_mod_cast hden
  have hle (a : Nat) : (a : ℚ) / i.den ≤ d.value ↔ a * den ≤ num := by
    rw [div_le_iff₀ hiq, hvalue, le_div_iff₀ hdq]
    exact_mod_cast Iff.rfl
  have hge (a : Nat) : d.value ≤ (a : ℚ) / i.den ↔ num ≤ a * den := by
    rw [le_div_iff₀ hiq, hvalue, div_le_iff₀ hdq]
    exact_mod_cast Iff.rfl
  rw [hholds, Contains]
  split
  · rw [Bool.and_eq_true, decide_eq_true_iff, decide_eq_true_iff, hle, hge]
  · rw [Bool.and_eq_true, decide_eq_true_iff, decide_eq_true_iff, lt_iff_not_ge, lt_iff_not_ge,
      ← hge, ← hle, not_le, not_le]

/-- Without the zeros at its end, a decimal denotes the same rational. -/
theorem Decimal.value_trimZeros (d : Decimal) : d.trimZeros.value = d.value := by
  have hgo : ∀ digits exponent,
      (trimZeros.go digits exponent).value = value ⟨digits, exponent⟩ := by
    intro digits exponent
    fun_induction trimZeros.go digits exponent with
    | case1 digits exponent h ih =>
      obtain ⟨tens, rfl⟩ : ∃ tens, digits = tens * 10 := ⟨digits / 10, by omega⟩
      rw [ih, Nat.mul_div_cancel _ (by decide)]
      simp only [value, Nat.cast_mul, zpow_add_one₀ (show (10 : ℚ) ≠ 0 by norm_num)]
      push_cast
      ring
    | case2 digits exponent h => rfl
  exact hgo d.digits d.exponent

/-! ## The search -/

/-- A grid offers one of the two points around the value, over some common denominator: the first
that lies in the interval, of a pair that holds the point above. -/
theorem Interval.onGrid?_eq {i : Interval} (hi : 0 < i.den) (k : Int) :
    ∃ (num den : Nat) (first second : Decimal), 0 < den ∧
      (num : ℚ) / den * (10 : ℚ) ^ k = i.mid / i.den ∧
      (first = ⟨num / den + 1, k⟩ ∨ second = ⟨num / den + 1, k⟩) ∧
      i.onGrid? k = if first.digits ≠ 0 && i.holds first then some first
        else if second.digits ≠ 0 && i.holds second then some second else none := by
  obtain ⟨num, den, hden, hvalue, hpair⟩ : ∃ num den : Nat, 0 < den ∧
      (num : ℚ) / den * (10 : ℚ) ^ k = i.mid / i.den ∧
      (if 0 ≤ k then (i.mid, i.den * Nat.pow 10 k.toNat)
        else (i.mid * Nat.pow 10 (-k).toNat, i.den)) = (num, den) := by
    by_cases h : 0 ≤ k
    · refine ⟨_, _, Nat.mul_pos hi (Nat.pow_pos (by decide)), ?_, if_pos h⟩
      obtain ⟨n, rfl⟩ := Int.eq_ofNat_of_zero_le h
      simp only [Int.toNat_natCast, zpow_natCast]
      push_cast
      field_simp
    · refine ⟨_, _, hi, ?_, if_neg h⟩
      obtain ⟨n, hn⟩ := Int.eq_ofNat_of_zero_le (a := -k) (by omega)
      obtain rfl : k = -(n : Int) := by omega
      simp only [neg_neg, Int.toNat_natCast, Nat.pow_eq, zpow_neg, zpow_natCast]
      push_cast
      field_simp
  by_cases htie : 2 * (num % den) < den ∨ 2 * (num % den) = den ∧ num / den % 2 = 0
  · refine ⟨num, den, ⟨num / den, k⟩, ⟨num / den + 1, k⟩, hden, hvalue, .inr rfl, ?_⟩
    simp only [onGrid?, hpair, if_pos htie]
  · refine ⟨num, den, ⟨num / den + 1, k⟩, ⟨num / den, k⟩, hden, hvalue, .inl rfl, ?_⟩
    simp only [onGrid?, hpair, if_neg htie]

/-- A decimal that a grid offers lies in the interval. -/
theorem Interval.contains_of_onGrid? {i : Interval} (hi : 0 < i.den) {k : Int} {d : Decimal}
    (h : i.onGrid? k = some d) : i.Contains d.value := by
  obtain ⟨num, den, first, second, -, -, -, heq⟩ := onGrid?_eq hi k
  rw [← holds_iff hi]
  rw [h] at heq
  split at heq
  · rename_i hfirst
    cases heq
    exact (Bool.and_eq_true_iff.mp hfirst).2
  · split at heq
    · rename_i hsecond
      cases heq
      exact (Bool.and_eq_true_iff.mp hsecond).2
    · cases heq

/-- A grid offers a decimal if the upper end of the interval is more than a step of the grid away
from the value. -/
theorem Interval.isSome_onGrid? {i : Interval} (hi : 0 < i.den) {k : Int} (hlow : i.low ≤ i.mid)
    (hroom : (i.mid : ℚ) / i.den + (10 : ℚ) ^ k < i.high / i.den) : (i.onGrid? k).isSome := by
  obtain ⟨num, den, first, second, hden, hvalue, hpoint, heq⟩ := onGrid?_eq hi k
  -- The grid point above the value is in the interval.
  have habove : i.holds ⟨num / den + 1, k⟩ = true := by
    have hden' : (0 : ℚ) < den := by exact_mod_cast hden
    have hten : (0 : ℚ) < (10 : ℚ) ^ k := by positivity
    have hlt : (num : ℚ) / den < (num / den + 1 : Nat) := by
      rw [div_lt_iff₀ hden']
      exact_mod_cast Nat.lt_mul_of_div_lt (Nat.lt_succ_self _) hden
    have hle : ((num / den + 1 : Nat) : ℚ) ≤ num / den + 1 := by
      push_cast
      exact add_le_add_left Nat.cast_div_le 1
    have hgt : (i.mid : ℚ) / i.den < Decimal.value ⟨num / den + 1, k⟩ := by
      rw [← hvalue]
      exact mul_lt_mul_of_pos_right hlt hten
    have hbound : Decimal.value ⟨num / den + 1, k⟩ < i.high / i.den := by
      calc Decimal.value ⟨num / den + 1, k⟩ ≤ ((num : ℚ) / den + 1) * (10 : ℚ) ^ k :=
            mul_le_mul_of_nonneg_right hle hten.le
        _ = (i.mid : ℚ) / i.den + (10 : ℚ) ^ k := by rw [add_mul, hvalue, one_mul]
        _ < i.high / i.den := hroom
    have hbelow : (i.low : ℚ) / i.den ≤ i.mid / i.den :=
      div_le_div_of_nonneg_right (by exact_mod_cast hlow) (Nat.cast_nonneg _)
    rw [holds_iff hi, Contains]
    split
    · exact ⟨(hbelow.trans_lt hgt).le, hbound.le⟩
    · exact ⟨hbelow.trans_lt hgt, hbound⟩
  rw [heq]
  split
  · rfl
  · rename_i hfirst
    obtain rfl | rfl := hpoint
    · simp [habove] at hfirst
    · simp [habove]

/-- The search ends in the interval if one of the grids it comes to offers a decimal. -/
theorem Interval.contains_search {i : Interval} (hi : 0 < i.den) {k : Int} {steps j : Nat}
    (hj : j < steps) (h : (i.onGrid? (k - j)).isSome) : i.Contains (i.search k steps).value := by
  induction steps generalizing k j with
  | zero => omega
  | succ steps ih =>
    unfold search
    split
    · rename_i d hd
      exact contains_of_onGrid? hi hd
    · rename_i hnone
      cases j with
      | zero => simp [hnone] at h
      | succ j =>
        refine ih (j := j) (by omega) ?_
        rwa [show k - 1 - (j : Int) = k - (j + 1 : Nat) by omega]

/-! ## The interval of a number -/

/-- The numerator of the lower end, in quarters of the last place. -/
def lowerQuarters (m : Nat) (e : Int) : Nat :=
  4 * m - if m = 2 ^ 52 ∧ e ≠ -1074 then 1 else 2

theorem interval_den_pos (m : Nat) (e : Int) : 0 < (interval m e).den := quotient_den_pos 1 (e - 2)

/-- The ends of the interval and the value in it. -/
theorem interval_ends (m : Nat) (e : Int) :
    ((interval m e).low : ℚ) / (interval m e).den = lowerQuarters m e * (2 : ℚ) ^ (e - 2) ∧
    ((interval m e).mid : ℚ) / (interval m e).den = (4 * m : Nat) * (2 : ℚ) ^ (e - 2) ∧
    ((interval m e).high : ℚ) / (interval m e).den = (4 * m + 2 : Nat) * (2 : ℚ) ^ (e - 2) := by
  have hscale (n : Nat) : ((n * (quotient 1 (e - 2)).1 : Nat) : ℚ) / (quotient 1 (e - 2)).2 =
      n * (2 : ℚ) ^ (e - 2) := by
    rw [Nat.cast_mul, mul_div_assoc, quotient_value, Nat.cast_one, one_mul]
  exact ⟨hscale _, hscale _, hscale _⟩

/-- The interval of a number in terms of its ends, which belong to it if the significand is even. -/
theorem contains_interval_iff {m : Nat} {e : Int} {q : ℚ} :
    (interval m e).Contains q ↔
      if m % 2 = 0 then
        lowerQuarters m e * (2 : ℚ) ^ (e - 2) ≤ q ∧ q ≤ (4 * m + 2 : Nat) * (2 : ℚ) ^ (e - 2)
      else
        lowerQuarters m e * (2 : ℚ) ^ (e - 2) < q ∧ q < (4 * m + 2 : Nat) * (2 : ℚ) ^ (e - 2) := by
  obtain ⟨hlow, -, hhigh⟩ := interval_ends m e
  have hclosed : (interval m e).closed = decide (m % 2 = 0) := rfl
  rw [Interval.Contains, hlow, hhigh, hclosed]
  simp only [decide_eq_true_iff]

/-! ## No two numbers share a rational -/

/-- If a rational lies in the intervals of two numbers, the lower end of the one does not lie above
the upper end of the other, and lies below it unless both significands are even. -/
theorem lowerQuarters_le_of_contains {m n d : Nat} {e : Int} {q : ℚ}
    (hm : (interval m e).Contains q) (hn : (interval n (e + d)).Contains q) :
    lowerQuarters n (e + d) * 2 ^ d ≤ 4 * m + 2 ∧
      (m % 2 = 1 ∨ n % 2 = 1 → lowerQuarters n (e + d) * 2 ^ d < 4 * m + 2) := by
  rw [contains_interval_iff] at hm hn
  have hunit : (0 : ℚ) < (2 : ℚ) ^ (e - 2) := by positivity
  have hstep : (2 : ℚ) ^ (e + d - 2) = (2 : ℚ) ^ d * (2 : ℚ) ^ (e - 2) := by
    rw [← zpow_natCast, ← zpow_add₀ (by norm_num : (2 : ℚ) ≠ 0)]
    congr 1
    omega
  rw [hstep, ← mul_assoc] at hn
  have hle (a b : ℚ) (h : a * (2 : ℚ) ^ (e - 2) ≤ b * (2 : ℚ) ^ (e - 2)) : a ≤ b :=
    le_of_mul_le_mul_right h hunit
  have hlt (a b : ℚ) (h : a * (2 : ℚ) ^ (e - 2) < b * (2 : ℚ) ^ (e - 2)) : a < b :=
    lt_of_mul_lt_mul_right h hunit.le
  have hupper : q ≤ (4 * m + 2 : Nat) * (2 : ℚ) ^ (e - 2) := by
    split at hm
    · exact hm.2
    · exact hm.2.le
  have hlower : lowerQuarters n (e + d) * (2 : ℚ) ^ d * (2 : ℚ) ^ (e - 2) ≤ q := by
    split at hn
    · exact hn.1
    · exact hn.1.le
  refine ⟨by exact_mod_cast hle _ _ (hlower.trans hupper), ?_⟩
  rintro (hodd | hodd)
  · rw [if_neg (by omega)] at hm
    exact_mod_cast hlt _ _ (hlower.trans_lt hm.2)
  · rw [if_neg (by omega)] at hn
    exact_mod_cast hlt _ _ (hn.1.trans_le hupper)

/-- The interval of a number ends before that of a greater one begins. -/
theorem not_contains_of_lt {m n d : Nat} {e : Int} {q : ℚ} (hm : Normalized m e)
    (hn : Normalized n (e + d)) (hlt : d = 0 → m < n) (hq : (interval m e).Contains q) :
    ¬(interval n (e + d)).Contains q := by
  intro hq'
  obtain ⟨hle, hodd⟩ := lowerQuarters_le_of_contains hq hq'
  have hms := hm.lt_significand
  have hleast := hm.least_le
  have hquarters : lowerQuarters n (e + d) = 4 * n - 1 ∨
      lowerQuarters n (e + d) = 4 * n - 2 ∧ (n ≠ 2 ^ 52 ∨ e + d = -1074) := by
    unfold lowerQuarters
    split <;> omega
  cases d with
  | zero =>
    -- At one exponent only the next number comes close, and its significand has the other parity.
    have hmn := hlt rfl
    omega
  | succ d =>
    -- The step to a greater exponent is one from an odd significand.
    have hlead : 2 ^ 52 ≤ n := by
      have hleading := hn.leading
      omega
    have hpow : 2 ≤ 2 ^ (d + 1) := by
      rw [Nat.pow_succ]
      have := Nat.one_le_two_pow (n := d)
      omega
    have hdouble : lowerQuarters n (e + (d + 1 : Nat)) * 2 ≤
        lowerQuarters n (e + (d + 1 : Nat)) * 2 ^ (d + 1) := Nat.mul_le_mul_left _ hpow
    omega

/-- A rational lies in the interval of one finite double at most. -/
theorem eq_of_contains {m n : Nat} {e f : Int} {q : ℚ} (hm : Normalized m e) (hn : Normalized n f)
    (hq : (interval m e).Contains q) (hq' : (interval n f).Contains q) : m = n ∧ e = f := by
  obtain hlt | rfl | hlt := Int.lt_trichotomy e f
  · obtain ⟨d, rfl⟩ : ∃ d : Nat, f = e + d := ⟨(f - e).toNat, by omega⟩
    exact absurd hq' (not_contains_of_lt hm hn (by omega) hq)
  · refine ⟨?_, rfl⟩
    obtain hlt | heq | hlt := Nat.lt_trichotomy m n
    · exact absurd (by simpa using hq')
        (not_contains_of_lt (d := 0) hm (by simpa using hn) (fun _ => hlt) hq)
    · exact heq
    · exact absurd (by simpa using hq)
        (not_contains_of_lt (d := 0) hn (by simpa using hm) (fun _ => hlt) hq')
  · obtain ⟨d, rfl⟩ : ∃ d : Nat, e = f + d := ⟨(e - f).toNat, by omega⟩
    exact absurd hq (not_contains_of_lt hn hm (by omega) hq')

/-! ## The last grid -/

/-- The leading bit of a number with a significand of the format is not above the fifty-third of its
significand. -/
theorem floorLog2_quotient_le {m : Nat} {e : Int} (h : Normalized m e) :
    floorLog2 (quotient m e).1 (quotient m e).2 ≤ e + 52 := by
  have hguess : floorLog2 (quotient m e).1 (quotient m e).2 ≤
      ((quotient m e).1.log2 : Int) - (quotient m e).2.log2 := by
    unfold floorLog2
    dsimp only
    split <;> omega
  have hm := h.lt_significand
  have hlog (n k : Nat) (hn : n < 2 ^ (k + 1)) : n.log2 ≤ k := by
    by_cases h0 : n = 0
    · simp [h0]
    · exact Nat.lt_succ_iff.mp ((Nat.log2_lt h0).mpr hn)
  refine hguess.trans ?_
  unfold quotient
  split
  · rename_i he
    obtain ⟨k, rfl⟩ := Int.eq_ofNat_of_zero_le he
    have hlt : m * 2 ^ k < 2 ^ (52 + k + 1) := by
      rw [show 52 + k + 1 = 53 + k by omega, Nat.pow_add]
      exact Nat.mul_lt_mul_of_pos_right hm (Nat.two_pow_pos k)
    have := hlog _ _ hlt
    simp only [Int.toNat_natCast, Nat.pow_eq]
    omega
  · rename_i he
    have := hlog m 52 hm
    simp only [Nat.pow_eq, Nat.log2_two_pow]
    omega

/-- The exponent of the last grid searched, at most. -/
def lastGrid (e : Int) : Int := (e + 53) * 30103 / 100000 - 18

/-- At every exponent of the format, the step of the last grid is less than half the distance to the
next number. There are 2046 exponents to compare. -/
theorem ten_zpow_lastGrid_lt {e : Int} (hleast : -1074 ≤ e) (hgreatest : e ≤ 971) :
    (10 : ℚ) ^ lastGrid e < (2 : ℚ) ^ (e - 1) := by
  have hall : ∀ i : Nat, i < 2046 →
      10 ^ (lastGrid (i - 1074)).toNat * 2 ^ (-((i : Int) - 1074 - 1)).toNat <
        2 ^ ((i : Int) - 1074 - 1).toNat * 10 ^ (-lastGrid (i - 1074)).toNat := by
    decide +kernel
  have h := hall (e + 1074).toNat (by omega)
  rw [show ((e + 1074).toNat : Int) - 1074 = e by omega] at h
  have hzpow (a : ℚ) (ha : 0 < a) (k : Int) : a ^ k = a ^ k.toNat / a ^ (-k).toNat := by
    rw [← zpow_natCast, ← zpow_natCast, ← zpow_sub₀ ha.ne']
    congr 1
    omega
  rw [hzpow 10 (by norm_num), hzpow 2 (by norm_num),
    div_lt_div_iff₀ (by positivity) (by positivity)]
  exact_mod_cast h

/-- The shortest decimal of a finite double lies in its interval: it reads back as the number. -/
theorem contains_shortest {m : Nat} {e : Int} (h : Normalized m e) :
    (interval m e).Contains (shortest m e).value := by
  obtain ⟨-, hmid, hhigh⟩ := interval_ends m e
  have hfine := ten_zpow_lastGrid_lt h.least_le h.le_greatest
  have hlog := floorLog2_quotient_le h
  rw [shortest]
  dsimp only
  rw [Decimal.value_trimZeros]
  refine Interval.contains_search (interval_den_pos m e) (j := 19) (by decide) ?_
  refine Interval.isSome_onGrid? (interval_den_pos m e) (Nat.mul_le_mul_right _ (Nat.sub_le _ _)) ?_
  rw [hmid, hhigh]
  have hgrid : (10 : ℚ) ^ ((floorLog2 (quotient m e).1 (quotient m e).2 + 1) * 30103 / 100000 + 1 -
      (19 : Nat)) ≤ (10 : ℚ) ^ lastGrid e :=
    zpow_le_zpow_right₀ (by norm_num) (by unfold lastGrid; omega)
  have hhalf : (2 : ℚ) ^ (e - 1) = 2 * (2 : ℚ) ^ (e - 2) := by
    rw [show e - 1 = e - 2 + 1 by omega, zpow_add_one₀ (by norm_num), mul_comm]
  push_cast
  linarith

/-- Zero lies in the interval of zero. -/
theorem contains_zero (e : Int) : (interval 0 e).Contains 0 := by
  have hlower : lowerQuarters 0 e = 0 := by simp [lowerQuarters]
  rw [contains_interval_iff, if_pos (by decide), hlower]
  exact ⟨by simp, by positivity⟩

/-- The interval of a positive number holds positive rationals only, so its shortest decimal has a
digit. -/
theorem digits_shortest_ne_zero {m : Nat} {e : Int} (h : Normalized m e) (hm : m ≠ 0) :
    (shortest m e).digits ≠ 0 := by
  intro hzero
  have hcontains := contains_shortest h
  have hvalue : (shortest m e).value = 0 := by simp [Decimal.value, hzero]
  have hquarters : 0 < lowerQuarters m e := by
    unfold lowerQuarters
    split <;> omega
  have hpos : (0 : ℚ) < lowerQuarters m e * (2 : ℚ) ^ (e - 2) := by positivity
  rw [hvalue, contains_interval_iff] at hcontains
  split at hcontains
  · exact absurd hcontains.1 (not_le.mpr hpos)
  · exact absurd hcontains.1 (not_lt.mpr hpos.le)

end SalesQuery.Binary64
