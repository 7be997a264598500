import SalesQuery.Text.Ascii

/-!
# Integers in text

An integer is written with decimal digits, which may start with zeros, after an optional sign. Only
integers with a sign may be negative; all may be written with a plus.
-/

namespace SalesQuery.Text

/-- Whether an integer fits 64 bits with a sign. -/
def fitsInt64 (n : Int) : Bool := -9223372036854775808 ≤ n && n ≤ 9223372036854775807

/-- The number that a text writes, with an optional plus. -/
def unsigned? : List Char → Option Nat
  | '+' :: rest => natural? rest
  | l => natural? l

/-- The number that a text writes, if it fits so many bits. -/
def unsignedOf? (bits : Nat) (l : List Char) : Option Nat :=
  (unsigned? l).filter (· < Nat.pow 2 bits)

/-- The integer of 64 bits that a text writes, with an optional sign. -/
def int64? (l : List Char) : Option Int :=
  let n : Option Int := match l with
    | '-' :: rest => (natural? rest).map fun n => -(n : Int)
    | l => (unsigned? l).map fun n => (n : Int)
  n.filter fitsInt64

end SalesQuery.Text
