/-!
# Double precision numbers

A `Binary64` is a bit pattern of the IEEE 754 format binary64. A finite one has the exact value
`± m · 2^e`, and `Binary64.nearest` finds the number closest to a quotient of naturals, ties to the
even significand. Arithmetic is exact arithmetic followed by `nearest`, so every result is the
correctly rounded one and no operation depends on the machine.
-/

namespace SalesQuery

/-- A number of the format binary64, given by its bits. -/
structure Binary64 where
  /-- Sign bit, eleven bits of exponent and fifty-two bits of fraction. -/
  bits : UInt64
deriving DecidableEq, Repr, Inhabited

namespace Binary64

/-- What a bit pattern stands for. -/
inductive Meaning where
  /-- Not a number. -/
  | nan
  /-- An infinity. -/
  | infinite (negative : Bool)
  /-- The value `significand · 2^exponent`, with its sign. -/
  | finite (negative : Bool) (significand : Nat) (exponent : Int)
deriving DecidableEq, Repr

/-- The bits below the sign of an infinity. -/
def infinityMagnitude : Nat := 2047 * Nat.pow 2 52

/-- The number with a sign and the given bits below it. -/
def ofMagnitude (negative : Bool) (magnitude : Nat) : Binary64 :=
  ⟨UInt64.ofNat (if negative then Nat.pow 2 63 + magnitude else magnitude)⟩

/-- The quiet number that stands for no value. -/
def nan : Binary64 := ofMagnitude false (infinityMagnitude + Nat.pow 2 51)

/-- The infinity of a sign. -/
def infinity (negative : Bool) : Binary64 := ofMagnitude negative infinityMagnitude

/-- The zero of a sign. -/
def zero (negative : Bool) : Binary64 := ofMagnitude negative 0

/-- Whether the sign bit is set. -/
def isNegative (x : Binary64) : Bool := Nat.pow 2 63 ≤ x.bits.toNat

/-- The bits below the sign. -/
def magnitude (x : Binary64) : Nat := x.bits.toNat % Nat.pow 2 63

/-- The value of a bit pattern: subnormal numbers have no implicit leading bit. -/
def meaning (x : Binary64) : Meaning :=
  let field : Nat := x.magnitude / Nat.pow 2 52
  let fraction : Nat := x.magnitude % Nat.pow 2 52
  if field = 2047 then
    if fraction = 0 then .infinite x.isNegative else .nan
  else if field = 0 then .finite x.isNegative fraction (-1074)
  else .finite x.isNegative (Nat.pow 2 52 + fraction) ((field : Int) - 1075)

/-- Whether the number is neither an infinity nor a NaN. -/
def isFinite (x : Binary64) : Bool := x.magnitude < infinityMagnitude

/-- Whether the number is a zero of either sign. -/
def isZero (x : Binary64) : Bool := x.magnitude = 0

/-- The number with the other sign. -/
def neg (x : Binary64) : Binary64 := ofMagnitude (!x.isNegative) x.magnitude

/-- The number without its sign. -/
def abs (x : Binary64) : Binary64 := ofMagnitude false x.magnitude

/-- The greatest `e` with `2^e ≤ num / den`, for positive `num` and `den`. -/
def floorLog2 (num den : Nat) : Int :=
  let guess : Int := (Nat.log2 num : Int) - Nat.log2 den
  let reached :=
    if 0 ≤ guess then den * Nat.pow 2 guess.toNat ≤ num else den ≤ num * Nat.pow 2 (-guess).toNat
  if reached then guess else guess - 1

/-- The quotient rounded to the nearest natural, ties to the even one. -/
def roundDivEven (num den : Nat) : Nat :=
  let quotient := num / den
  let twice := 2 * (num % den)
  if twice < den then quotient
  else if den < twice then quotient + 1
  else quotient + quotient % 2

/-- The number nearest to `num / den` with the given sign, ties to the even significand; infinity
from half a unit above the greatest finite number on. -/
def nearest (negative : Bool) (num den : Nat) : Binary64 :=
  if num = 0 then zero negative
  else
    -- The exponent of the last place of the significand.
    let place := max (floorLog2 num den - 52) (-1074)
    let significand :=
      if 0 ≤ place then roundDivEven num (den * Nat.pow 2 place.toNat)
      else roundDivEven (num * Nat.pow 2 (-place).toNat) den
    -- A significand that rounds up to the next power of two carries into the exponent field.
    let magnitude := (place + 1074).toNat * Nat.pow 2 52 + significand
    if magnitude < infinityMagnitude then ofMagnitude negative magnitude else infinity negative

/-- The number nearest to an integer. -/
def ofInt (n : Int) : Binary64 := nearest (n < 0) n.natAbs 1

/-- The numerator and denominator of `significand · 2^exponent`. -/
def quotient (significand : Nat) (exponent : Int) : Nat × Nat :=
  if 0 ≤ exponent then (significand * Nat.pow 2 exponent.toNat, 1)
  else (significand, Nat.pow 2 (-exponent).toNat)

end Binary64

end SalesQuery
