import Mathlib.Tactic.Linarith
import Mathlib.Tactic.NormNum
import Mathlib.Data.Rat.Floor
import SalesQuery.Report.Comparison

/-!
# Trends beside rounded percentages

A comparison shows a change in percent, rounded to hundredths, and a trend. Rounding to a multiple
of a unit, halves away from zero (`RoundsHalfAway`), takes a number to a positive multiple or beyond
exactly if it is at most half a unit below (`RoundsHalfAway.le_iff`). So a change from 0.995 percent
on is shown as one percent, but the trend is that of the change before rounding, which is less than
one. There, and nowhere else, the trend does not fit the percentage beside it
(`MetricComparison.trend_fits_iff`).
-/

namespace SalesQuery

/-! ## Rounding -/

/-- The number is rounded to a multiple of a unit, halves away from zero. -/
structure RoundsHalfAway (unit x r : ℚ) : Prop where
  /-- The result is a multiple of the unit. -/
  multiple : ∃ k : ℤ, r = k * unit
  /-- No multiple is nearer. -/
  near : |x - r| ≤ unit / 2
  /-- Where another multiple is as near, the result is the one farther from zero. -/
  away : |x - r| = unit / 2 → |x| < |r|

namespace RoundsHalfAway

variable {unit x r : ℚ}

/-- Rounding does not depend on the sign. -/
theorem neg (h : RoundsHalfAway unit x r) : RoundsHalfAway unit (-x) (-r) := by
  obtain ⟨k, hk⟩ := h.multiple
  have hdistance : |-x - -r| = |x - r| := by rw [neg_sub_neg, abs_sub_comm]
  refine ⟨⟨-k, by rw [hk]; push_cast; ring⟩, ?_, ?_⟩
  · rw [hdistance]
    exact h.near
  · rw [hdistance, abs_neg, abs_neg]
    exact h.away

/-- A scaled number is rounded to multiples of the scaled unit. -/
theorem div {factor : ℚ} (hfactor : 0 < factor) (h : RoundsHalfAway unit (x * factor) r) :
    RoundsHalfAway (unit / factor) x (r / factor) := by
  obtain ⟨k, hk⟩ := h.multiple
  have hdistance : |x - r / factor| = |x * factor - r| / factor := by
    rw [← abs_of_pos hfactor, ← abs_div, abs_of_pos hfactor, sub_div,
      mul_div_cancel_right₀ x hfactor.ne']
  have hhalf : unit / factor / 2 = unit / 2 / factor := div_right_comm ..
  refine ⟨⟨k, by rw [hk, mul_div_assoc]⟩, ?_, ?_⟩
  · rw [hdistance, hhalf]
    exact div_le_div_of_nonneg_right h.near hfactor.le
  · rw [hdistance, hhalf, div_left_inj' hfactor.ne', abs_div, abs_of_pos hfactor,
      lt_div_iff₀ hfactor]
    intro heq
    calc |x| * factor = |x * factor| := by rw [abs_mul, abs_of_pos hfactor]
      _ < |r| := h.away heq

/-- A number is rounded to a positive multiple or beyond exactly if it is at most half a unit below
the multiple. -/
theorem le_iff (h : RoundsHalfAway unit x r) (hunit : 0 < unit) {n : ℤ} (hn : 1 ≤ n) :
    n * unit ≤ r ↔ n * unit - unit / 2 ≤ x := by
  obtain ⟨hbelow, habove⟩ := abs_le.mp h.near
  obtain ⟨k, rfl⟩ := h.multiple
  have hmultiple (m : ℤ) : (m : ℚ) * unit ≤ k * unit ↔ m ≤ k := by
    rw [mul_le_mul_iff_left₀ hunit, Int.cast_le]
  constructor
  · intro hle
    linarith
  · intro hle
    rw [hmultiple]
    by_contra hlt
    -- One multiple below, the number is half a unit above the result, which is not farther from
    -- zero.
    have hprevious : ((n - 1 : ℤ) : ℚ) * unit ≤ k * unit := by
      push_cast
      linarith
    obtain rfl : k = n - 1 := by
      have := (hmultiple (n - 1)).mp hprevious
      omega
    push_cast at hbelow habove
    have hnonneg : (0 : ℚ) ≤ ((n - 1 : ℤ) : ℚ) * unit :=
      mul_nonneg (by exact_mod_cast (by omega : 0 ≤ n - 1)) hunit.le
    have hx : x - ((n - 1 : ℤ) : ℚ) * unit = unit / 2 := by
      push_cast
      linarith
    have hdistance : |x - ((n - 1 : ℤ) : ℚ) * unit| = unit / 2 := by
      rw [hx, abs_of_pos (half_pos hunit)]
    have hfarther := h.away hdistance
    rw [abs_of_nonneg hnonneg, abs_of_nonneg (by linarith)] at hfarther
    linarith

/-- A number is rounded to a positive multiple exactly if it is less than half a unit above the
multiple and at most half a unit below. -/
theorem eq_iff (h : RoundsHalfAway unit x r) (hunit : 0 < unit) {n : ℤ} (hn : 1 ≤ n) :
    r = n * unit ↔ n * unit - unit / 2 ≤ x ∧ x < n * unit + unit / 2 := by
  have hnext : x < n * unit + unit / 2 ↔ r < ((n + 1 : ℤ) : ℚ) * unit := by
    rw [← not_le, ← not_le, h.le_iff hunit (by omega)]
    push_cast
    exact not_congr ⟨fun h => by linarith, fun h => by linarith⟩
  rw [hnext, ← h.le_iff hunit hn]
  obtain ⟨k, rfl⟩ := h.multiple
  rw [mul_le_mul_iff_left₀ hunit, mul_lt_mul_iff_left₀ hunit, mul_left_inj' hunit.ne', Int.cast_le,
    Int.cast_lt, Int.cast_inj]
  omega

end RoundsHalfAway

/-- Exact figures are rounded to integers. -/
theorem roundsHalfAway_round (x : ℚ) : RoundsHalfAway 1 x (Quantity.round x) := by
  have hfloor (y : ℚ) (hy : 0 ≤ y) : RoundsHalfAway 1 y ⌊y + 1 / 2⌋ := by
    have hle := Int.floor_le (y + 1 / 2)
    have hlt := Int.lt_floor_add_one (y + 1 / 2)
    have hnonneg : (0 : ℚ) ≤ ⌊y + 1 / 2⌋ := by
      exact_mod_cast Int.floor_nonneg.mpr (by linarith)
    refine ⟨⟨⌊y + 1 / 2⌋, (mul_one _).symm⟩, abs_le.mpr ⟨by linarith, by linarith⟩, fun h => ?_⟩
    rw [abs_of_nonneg hy, abs_of_nonneg hnonneg]
    obtain ⟨h', -⟩ | ⟨h', -⟩ := abs_cases (y - ⌊y + 1 / 2⌋)
    · linarith
    · linarith
  show RoundsHalfAway 1 x (if x < 0 then -(⌊-x + 1 / 2⌋ : ℚ) else ⌊x + 1 / 2⌋)
  split
  · rename_i hneg
    simpa using (hfloor (-x) (by linarith)).neg
  · exact hfloor x (by linarith)

/-- Exact figures are rounded to decimal places. -/
theorem roundsHalfAway_roundTo (x : ℚ) (places : ℕ) :
    RoundsHalfAway (1 / 10 ^ places) x (roundTo x places) := by
  have hpower : (Quantity.powerOfTen (places : ℤ) : ℚ) = 10 ^ places := by
    show (if (places : ℤ) < 0 then 1 / (10 ^ (places : ℤ).natAbs : ℚ)
      else 10 ^ (places : ℤ).natAbs) = 10 ^ places
    rw [if_neg (by omega), Int.natAbs_natCast]
  rw [roundTo, hpower]
  exact (roundsHalfAway_round _).div (by positivity)

/-! ## Trends -/

/-- The trend is the one of a change in percent. -/
structure Trend.Fits (t : Trend) (change : ℚ) : Prop where
  /-- It is neutral exactly if the change is less than one percent. -/
  neutral : t = .neutral ↔ |change| < 1
  /-- It goes up exactly if the change is one percent or more. -/
  up : t = .up ↔ 1 ≤ change
  /-- It goes down exactly if the change is one percent or more below zero. -/
  down : t = .down ↔ change ≤ -1

/-- A trend that fits one change fits another exactly if the two are on the same side of both
thresholds. -/
theorem Trend.Fits.fits_iff {t : Trend} {change other : ℚ} (h : t.Fits change) :
    t.Fits other ↔ (1 ≤ other ↔ 1 ≤ change) ∧ (other ≤ -1 ↔ change ≤ -1) := by
  refine ⟨fun h' => ⟨by rw [← h'.up, h.up], by rw [← h'.down, h.down]⟩, fun ⟨hup, hdown⟩ => ?_⟩
  have hneutral (q : ℚ) : |q| < 1 ↔ ¬ 1 ≤ q ∧ ¬ q ≤ -1 := by
    rw [abs_lt, not_le, not_le, and_comm]
  exact ⟨by rw [h.neutral, hneutral, hneutral, hup, hdown], by rw [h.up, hup],
    by rw [h.down, hdown]⟩

namespace MetricComparison

/-- The change is relative to the other value. -/
theorem percentage_of_ne {base compare : ℚ} (h : compare ≠ 0) :
    percentage base compare = (base - compare) / compare * 100 := by
  have hzero : Quantity.isZero compare = false := decide_eq_false h
  rw [percentage, hzero]
  rfl

/-- There is no change relative to zero. -/
theorem percentage_of_eq {base compare : ℚ} (h : compare = 0) : percentage base compare = 0 := by
  have hzero : Quantity.isZero compare = true := decide_eq_true h
  rw [percentage, hzero]
  rfl

/-- The trend is the one of the change that it is taken from. -/
theorem fits_trendOf (change : ℚ) : (trendOf change).Fits change := by
  have habs : Quantity.abs change = |change| := by
    show (if change < 0 then -change else change) = |change|
    split
    · rename_i hneg
      exact (abs_of_neg hneg).symm
    · rename_i hnonneg
      exact (abs_of_nonneg (by linarith)).symm
  have htrend : trendOf change =
      if |change| < 1 then .neutral else if 0 < change then .up else .down := by
    have hone : (Quantity.ofInt 1 : ℚ) = 1 := rfl
    have hzero : (Quantity.ofInt 0 : ℚ) = 0 := rfl
    have hlt (x y : ℚ) : Quantity.lt x y = decide (x < y) := rfl
    simp only [trendOf, habs, hone, hzero, hlt, decide_eq_true_eq]
  rw [htrend]
  rcases lt_or_ge |change| 1 with hsmall | hlarge
  · obtain ⟨hlow, hhigh⟩ := abs_lt.mp hsmall
    rw [if_pos hsmall]
    exact ⟨iff_of_true rfl hsmall, iff_of_false nofun hhigh.not_ge, iff_of_false nofun hlow.not_ge⟩
  · rw [if_neg hlarge.not_gt]
    have hneutral : ¬ |change| < 1 := hlarge.not_gt
    rcases le_abs'.mp hlarge with hdown | hup
    · rw [if_neg (by linarith)]
      exact ⟨iff_of_false nofun hneutral, iff_of_false nofun (by linarith), iff_of_true rfl hdown⟩
    · rw [if_pos (by linarith)]
      exact ⟨iff_of_false nofun hneutral, iff_of_true rfl hup, iff_of_false nofun (by linarith)⟩

/-- The change that is shown, rounded to hundredths. -/
theorem roundsHalfAway_percentageChange (name : String) (base compare : ℚ) :
    RoundsHalfAway (1 / 100) (percentage base compare)
      (ofValues name base compare).percentageChange := by
  have hunit : (1 / 100 : ℚ) = 1 / 10 ^ 2 := by norm_num
  rw [hunit]
  exact roundsHalfAway_roundTo (percentage base compare) 2

/-- The trend also fits the change that is shown, unless the change is at least 0.995 but less than
one percent. -/
theorem fits_percentageChange_iff (name : String) (base compare : ℚ) :
    let change := percentage base compare
    (trendOf change).Fits (ofValues name base compare).percentageChange ↔
      ¬ (199 / 200 ≤ |change| ∧ |change| < 1) := by
  intro change
  have hrounds := roundsHalfAway_percentageChange name base compare
  -- Both thresholds are a hundred units from zero.
  have hup := hrounds.le_iff (by norm_num) (n := 100) (by decide)
  have hdown := hrounds.neg.le_iff (by norm_num) (n := 100) (by decide)
  norm_num at hup hdown
  have hbetween : (199 / 200 ≤ |change| ∧ |change| < 1) ↔
      (199 / 200 ≤ change ∧ change < 1) ∨ (199 / 200 ≤ -change ∧ -change < 1) := by
    rw [le_abs, abs_lt]
    grind
  rw [(fits_trendOf change).fits_iff, hup, le_neg, hdown, hbetween]
  grind

/-- A change of at least 0.995 but less than one percent is shown as one percent. -/
theorem abs_percentageChange {name : String} {base compare : ℚ}
    (hlow : 199 / 200 ≤ |percentage base compare|) (hhigh : |percentage base compare| < 1) :
    |(ofValues name base compare).percentageChange| = 1 := by
  have hrounds := roundsHalfAway_percentageChange name base compare
  have hone := hrounds.eq_iff (by norm_num) (n := 100) (by decide)
  have hminus := hrounds.neg.eq_iff (by norm_num) (n := 100) (by decide)
  norm_num at hone hminus
  obtain ⟨habove, hbelow⟩ := abs_lt.mp hhigh
  rw [abs_eq zero_le_one, ← neg_eq_iff_eq_neg, hone, hminus]
  rcases le_abs.mp hlow with hup | hdown
  · exact .inl ⟨hup, by linarith⟩
  · exact .inr ⟨hdown, by linarith⟩

/-- A comparison shows the change in percent relative to the other value, rounded to hundredths, and
zero if that value is zero. Its trend is the one of the change before rounding. It also fits the
change that is shown, unless the change is at least 0.995 but less than one percent: then one
percent is shown, beside a neutral trend. -/
theorem trend_fits_iff (name : String) (base compare : ℚ) :
    let shown := ofValues name base compare
    let change := percentage base compare
    (compare ≠ 0 → change = (base - compare) / compare * 100) ∧
      (compare = 0 → shown.percentageChange = 0 ∧ shown.trend = .neutral) ∧
      RoundsHalfAway (1 / 100) change shown.percentageChange ∧
      shown.trend.Fits change ∧
      (shown.trend.Fits shown.percentageChange ↔ ¬ (199 / 200 ≤ |change| ∧ |change| < 1)) ∧
      (199 / 200 ≤ |change| ∧ |change| < 1 →
        |shown.percentageChange| = 1 ∧ shown.trend = .neutral) := by
  intro shown change
  have hfits : shown.trend.Fits change := fits_trendOf change
  refine ⟨percentage_of_ne, fun hcompare => ⟨?_, ?_⟩, roundsHalfAway_percentageChange _ _ _, hfits,
    fits_percentageChange_iff name base compare, fun ⟨hlow, hhigh⟩ =>
      ⟨abs_percentageChange hlow hhigh, hfits.neutral.mpr hhigh⟩⟩
  · show roundTo change 2 = 0
    rw [show change = 0 from percentage_of_eq hcompare]
    decide +kernel
  · rw [hfits.neutral, show change = 0 from percentage_of_eq hcompare, abs_zero]
    exact one_pos

/-- A growth from 100000 to 100996, by 0.996 percent, is shown as one percent beside a neutral
trend, so the trend does not fit the percentage beside it. The doubles of the service show the
same. -/
theorem neutral_beside_one :
    (ofValues "Faturamento Total" (100996 : ℚ) 100000).percentageChange = 1 ∧
      (ofValues "Faturamento Total" (100996 : ℚ) 100000).trend = .neutral ∧
      ¬ (∀ (name : String) (base compare : ℚ), (ofValues name base compare).trend.Fits
        (ofValues name base compare).percentageChange) ∧
      (ofValues "Faturamento Total" (Binary64.ofInt 100996)
        (Binary64.ofInt 100000)).percentageChange = Binary64.ofInt 1 ∧
      (ofValues "Faturamento Total" (Binary64.ofInt 100996)
        (Binary64.ofInt 100000)).trend = .neutral := by
  have hshown : (ofValues "Faturamento Total" (100996 : ℚ) 100000).percentageChange = 1 := by
    decide +kernel
  have htrend : (ofValues "Faturamento Total" (100996 : ℚ) 100000).trend = .neutral := by
    decide +kernel
  refine ⟨hshown, htrend, fun hfits => ?_, by decide +kernel, by decide +kernel⟩
  have hup := (hfits "Faturamento Total" 100996 100000).up
  rw [htrend, hshown] at hup
  exact absurd (hup.mpr le_rfl) (by decide)

end MetricComparison

end SalesQuery
