import SalesQuery.Binary64.Basic

/-!
# Shortest decimal digits

The text of a number is made of the fewest decimal digits that read back as the same number, and of
those the closest to its exact value. The reals that read back as `m · 2^e` form an interval around
it, ends included exactly when `m` is even; a grid of decimals meets that interval exactly when one
of the two grid points around the value lies in it.
-/

namespace SalesQuery.Binary64

/-- A decimal `digits · 10^exponent`. -/
structure Decimal where
  /-- The digits as one natural number. -/
  digits : Nat
  /-- The power of ten that the last digit counts. -/
  exponent : Int
deriving DecidableEq, Repr

/-- The reals that round to one finite number, over a common denominator: from `low` to `high`,
with the value itself at `mid`. -/
structure Interval where
  /-- Numerator of the lower end. -/
  low : Nat
  /-- Numerator of the value. -/
  mid : Nat
  /-- Numerator of the upper end. -/
  high : Nat
  /-- The common denominator. -/
  den : Nat
  /-- Whether the ends themselves round to the number. -/
  closed : Bool

/-- The interval of `m · 2^e`. Below a power of two the neighbours lie half as far apart, except at
the smallest exponent. -/
def interval (m : Nat) (e : Int) : Interval :=
  let below := if m = Nat.pow 2 52 ∧ e ≠ -1074 then 1 else 2
  let (scale, den) := quotient 1 (e - 2)
  { low := (4 * m - below) * scale, mid := 4 * m * scale, high := (4 * m + 2) * scale, den,
    closed := m % 2 = 0 }

/-- Whether the decimal lies in the interval. -/
def Interval.holds (i : Interval) (d : Decimal) : Bool :=
  -- Both sides over the denominator `i.den`.
  let (num, den) :=
    if 0 ≤ d.exponent then (d.digits * Nat.pow 10 d.exponent.toNat * i.den, 1)
    else (d.digits * i.den, Nat.pow 10 (-d.exponent).toNat)
  let low := i.low * den
  let high := i.high * den
  if i.closed then low ≤ num && num ≤ high else low < num && num < high

/-- The decimal of the grid `10^exponent` that reads back as the number and is closest to it, if
one does. A tie goes to the even digits. -/
def Interval.onGrid? (i : Interval) (exponent : Int) : Option Decimal :=
  let (num, den) :=
    if 0 ≤ exponent then (i.mid, i.den * Nat.pow 10 exponent.toNat)
    else (i.mid * Nat.pow 10 (-exponent).toNat, i.den)
  let below : Decimal := ⟨num / den, exponent⟩
  let above : Decimal := ⟨num / den + 1, exponent⟩
  let twice := 2 * (num % den)
  let (first, second) :=
    if twice < den ∨ twice = den ∧ below.digits % 2 = 0 then (below, above) else (above, below)
  if first.digits ≠ 0 && i.holds first then some first
  else if second.digits ≠ 0 && i.holds second then some second
  else none

/-- The first grid with a decimal in the interval, from the coarsest one down. Seventeen digits are
always enough. -/
def Interval.search (i : Interval) (exponent : Int) : Nat → Decimal
  | 0 => ⟨i.mid / i.den, 0⟩
  | more + 1 =>
    match i.onGrid? exponent with
    | some d => d
    | none => i.search (exponent - 1) more

/-- Removes the zeros at the end of the digits. -/
def Decimal.trimZeros (d : Decimal) : Decimal :=
  go d.digits d.exponent
where
  /-- Divides by ten while that leaves no remainder. -/
  go (digits : Nat) (exponent : Int) : Decimal :=
    if h : digits ≠ 0 ∧ digits % 10 = 0 then go (digits / 10) (exponent + 1)
    else ⟨digits, exponent⟩
  termination_by digits
  decreasing_by omega

/-- The shortest decimal of a positive finite number `m · 2^e`. -/
def shortest (m : Nat) (e : Int) : Decimal :=
  let i := interval m e
  -- The grid above the leading digit, from an estimate that is never too small.
  let (num, den) := quotient m e
  let leading := (floorLog2 num den + 1) * 30103 / 100000 + 1
  (i.search leading 20).trimZeros

end SalesQuery.Binary64
