import SalesQuery.Binary64.Arithmetic

/-!
# Rounding to decimal places

Figures are rounded by scaling with a power of ten, rounding halves away from zero, and scaling
back. The arithmetic is that of any type of quantities: doubles in the running service, and exact
rationals where the figures themselves are the subject.
-/

namespace SalesQuery

/-- Numbers with the operations that figures are made with. -/
class Quantity (α : Type) extends Sub α, Mul α, Div α where
  /-- An integer as a quantity. -/
  ofInt : Int → α
  /-- A power of ten. -/
  powerOfTen : Int → α
  /-- The nearest integer, halves away from zero. -/
  round : α → α
  /-- The absolute value. -/
  abs : α → α
  /-- Whether the first is below the second. -/
  lt : α → α → Bool
  /-- Whether the quantity is zero. -/
  isZero : α → Bool

instance : Quantity Binary64 where
  ofInt := Binary64.ofInt
  powerOfTen := Binary64.powInt (.ofInt 10)
  round := Binary64.round
  abs := Binary64.abs
  lt := Binary64.lt
  isZero := Binary64.isZero

instance : Quantity Rat where
  ofInt n := n
  powerOfTen n := if n < 0 then 1 / (10 ^ n.natAbs : Rat) else (10 ^ n.natAbs : Rat)
  round x := if x < 0 then -((-x + 1 / 2).floor : Rat) else ((x + 1 / 2).floor : Rat)
  abs x := if x < 0 then -x else x
  lt x y := x < y
  isZero x := x = 0

/-- The quantity rounded to a number of decimal places. -/
def roundTo {α : Type} [Quantity α] (x : α) (places : Int) : α :=
  let factor : α := Quantity.powerOfTen places
  Quantity.round (x * factor) / factor

end SalesQuery
