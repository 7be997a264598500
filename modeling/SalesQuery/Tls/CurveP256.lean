/-!
# The curve P-256

The points of `y^2 = x^3 - 3x + b` modulo a prime, in Jacobian coordinates: `(x, y, z)` stands for
the point `(x / z^2, y / z^3)`, and `z = 0` for the point at infinity, so that only the last step
from a multiple of the generator to its coordinates divides.
-/

namespace SalesQuery.CurveP256

/-- The prime modulus. -/
def p : Nat := 0xffffffff00000001000000000000000000000000ffffffffffffffffffffffff

/-- The number of points. -/
def order : Nat := 0xffffffff00000000ffffffffffffffffbce6faada7179e84f3b9cac2fc632551

/-- The `x` coordinate of the generator. -/
def generatorX : Nat := 0x6b17d1f2e12c4247f8bce6e563a440f277037d812deb33a0f4a13945d898c296

/-- The `y` coordinate of the generator. -/
def generatorY : Nat := 0x4fe342e2fe1a7f9b8ee7eb4a7c0f9e162bce33576b315ececbb6406837bf51f5

/-- A point in Jacobian coordinates. -/
structure Point where
  /-- The first coordinate. -/
  x : Nat
  /-- The second coordinate. -/
  y : Nat
  /-- The third coordinate. -/
  z : Nat
deriving DecidableEq, Repr

/-- The point at infinity. -/
def infinity : Point := ⟨1, 1, 0⟩

/-- The generator. -/
def generator : Point := ⟨generatorX, generatorY, 1⟩

/-- The difference modulo `p` of numbers below `p`. -/
def sub (a b : Nat) : Nat := (a + p - b) % p

/-- The point plus itself. -/
def Point.double (P : Point) : Point :=
  let y2 := P.y * P.y % p
  let s := 4 * P.x * y2 % p
  let z2 := P.z * P.z % p
  let m := 3 * sub P.x z2 * (P.x + z2) % p
  let x := sub (m * m % p) (2 * s % p)
  ⟨x, sub (m * sub s x % p) (8 * y2 * y2 % p), 2 * P.y * P.z % p⟩

/-- The sum of two points. -/
def Point.add (P Q : Point) : Point :=
  if P.z = 0 then Q
  else if Q.z = 0 then P
  else
    let z1 := P.z * P.z % p
    let z2 := Q.z * Q.z % p
    let u1 := P.x * z2 % p
    let u2 := Q.x * z1 % p
    let s1 := P.y * Q.z * z2 % p
    let s2 := Q.y * P.z * z1 % p
    let h := sub u2 u1
    let r := sub s2 s1
    if h = 0 then (if r = 0 then P.double else infinity)
    else
      let h2 := h * h % p
      let h3 := h * h2 % p
      let v := u1 * h2 % p
      let x := sub (sub (r * r % p) h3) (2 * v % p)
      ⟨x, sub (r * sub v x % p) (s1 * h3 % p), h * P.z * Q.z % p⟩

/-- The bits of a number below `2^256`, most significant first. -/
def bits (n : Nat) : List Bool := (List.range 256).map fun i => n.testBit (255 - i)

/-- A multiple of the generator. -/
def multiple (n : Nat) : Point :=
  (bits n).foldl (fun P bit => if bit then P.double.add generator else P.double) infinity

/-- A power modulo `p`. -/
def power (a n : Nat) : Nat :=
  (bits n).foldl (fun r bit => if bit then r * r % p * a % p else r * r % p) 1

/-- The coordinates of a point that is not at infinity. -/
def Point.coordinates (P : Point) : Nat × Nat :=
  let inverse := power P.z (p - 2)
  let inverse2 := inverse * inverse % p
  (P.x * inverse2 % p, P.y * inverse2 % p * inverse % p)

end SalesQuery.CurveP256
