import SalesQuery.Binary64.Basic

/-!
# Arithmetic on double precision numbers

Each operation is the exact one on rationals, rounded once. An invalid operation (`∞ - ∞`, `0 · ∞`,
`0 / 0`) gives a NaN, and a NaN is unordered and carries through.
-/

namespace SalesQuery.Binary64

/-- The sum of two numbers. Equal zeros keep their sign; any other exact zero is positive. -/
def add (x y : Binary64) : Binary64 :=
  match x.meaning, y.meaning with
  | .nan, _ => nan
  | _, .nan => nan
  | .infinite s, .infinite t => if s = t then infinity s else nan
  | .infinite s, _ => infinity s
  | _, .infinite t => infinity t
  | .finite s m e, .finite t n f =>
    let (p, q) := quotient m e
    let (u, v) := quotient n f
    let left : Int := if s then -(p * v : Nat) else (p * v : Nat)
    let right : Int := if t then -(u * q : Nat) else (u * q : Nat)
    let sum := left + right
    if sum = 0 then zero (s && t) else nearest (sum < 0) sum.natAbs (q * v)

/-- The difference of two numbers. -/
def sub (x y : Binary64) : Binary64 := x.add y.neg

/-- The product of two numbers. -/
def mul (x y : Binary64) : Binary64 :=
  let sign := x.isNegative != y.isNegative
  match x.meaning, y.meaning with
  | .nan, _ => nan
  | _, .nan => nan
  | .infinite _, .infinite _ => infinity sign
  | .infinite _, .finite _ n _ => if n = 0 then nan else infinity sign
  | .finite _ m _, .infinite _ => if m = 0 then nan else infinity sign
  | .finite _ m e, .finite _ n f =>
    let (p, q) := quotient m e
    let (u, v) := quotient n f
    nearest sign (p * u) (q * v)

/-- The quotient of two numbers; a nonzero number over zero is infinite. -/
def div (x y : Binary64) : Binary64 :=
  let sign := x.isNegative != y.isNegative
  match x.meaning, y.meaning with
  | .nan, _ => nan
  | _, .nan => nan
  | .infinite _, .infinite _ => nan
  | .infinite _, .finite _ _ _ => infinity sign
  | .finite _ _ _, .infinite _ => zero sign
  | .finite _ m e, .finite _ n f =>
    if n = 0 then if m = 0 then nan else infinity sign
    else
      let (p, q) := quotient m e
      let (u, v) := quotient n f
      nearest sign (p * v) (q * u)

/-- Strict order: by sign, then by magnitude. The two zeros are equal, and a NaN is below and above
nothing. -/
def lt (x y : Binary64) : Bool :=
  let key (z : Binary64) : Int := if z.isNegative then -(z.magnitude : Int) else z.magnitude
  x.meaning ≠ .nan && y.meaning ≠ .nan && key x < key y

/-- The integer nearest to the number, halves away from zero. The sign is kept, also of zero. -/
def round (x : Binary64) : Binary64 :=
  match x.meaning with
  | .finite s m e =>
    if 0 ≤ e then x
    else
      let den := Nat.pow 2 (-e).toNat
      nearest s ((2 * m + den) / (2 * den)) 1
  | _ => x

/-- The integer part, held within the range of a 64-bit signed integer; zero for a NaN. -/
def toInt64 (x : Binary64) : Int :=
  match x.meaning with
  | .nan => 0
  | .infinite s => if s then -9223372036854775808 else 9223372036854775807
  | .finite s m e =>
    let (p, q) := quotient m e
    let whole : Int := if s then -(p / q : Nat) else (p / q : Nat)
    max (-9223372036854775808) (min 9223372036854775807 whole)

/-- The power of a number by repeated squaring, each step rounded. -/
def powNat (base : Binary64) (n : Nat) : Binary64 :=
  go base n (ofInt 1)
where
  /-- Multiplies `product` by the powers of `base` at the binary digits of `n`. -/
  go (base : Binary64) (n : Nat) (product : Binary64) : Binary64 :=
    if h : n < 2 then if n = 1 then product.mul base else product
    else go (base.mul base) (n / 2) (if n % 2 = 1 then product.mul base else product)

/-- An integer power; a negative one is the reciprocal of the positive one. -/
def powInt (base : Binary64) (n : Int) : Binary64 :=
  let power := base.powNat n.natAbs
  if n < 0 then (ofInt 1).div power else power

instance : Add Binary64 := ⟨add⟩
instance : Sub Binary64 := ⟨sub⟩
instance : Mul Binary64 := ⟨mul⟩
instance : Div Binary64 := ⟨div⟩
instance : Neg Binary64 := ⟨neg⟩

end SalesQuery.Binary64
