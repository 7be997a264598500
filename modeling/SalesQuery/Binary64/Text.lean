import SalesQuery.Binary64.Shortest

/-!
# The text of a double precision number

A finite number is written with its shortest digits and always shows that it is no integer: by a
fraction (`1.0`) or by an exponent (`1e+16`). Positional notation serves the decimal exponents from
`-5` to `15`. Infinities and NaNs have no text.
-/

namespace SalesQuery.Binary64

/-- Where positional notation ends and how an exponent is marked. -/
structure Layout where
  /-- The least decimal exponent that is written positionally. -/
  leastPositional : Int
  /-- The greatest decimal exponent that is written positionally. -/
  greatestPositional : Int
  /-- The mark before a positive exponent. -/
  positiveMark : String
  /-- The mark before a negative exponent. -/
  negativeMark : String

/-- The layout of every number this library writes. -/
def layout : Layout := ⟨-5, 15, "e+", "e-"⟩

/-- The zeros of the given number. -/
def zeros (n : Nat) : String := String.ofList (List.replicate n '0')

/-- A positive decimal in the given layout. -/
def Decimal.write (l : Layout) (d : Decimal) : String :=
  let digits := (toString d.digits).toList
  let size := digits.length
  -- The exponent of the leading digit.
  let leading := d.exponent + size - 1
  if leading < l.leastPositional ∨ l.greatestPositional < leading then
    let fraction := digits.drop 1
    let point := if fraction.isEmpty then "" else "." ++ String.ofList fraction
    let mark := if leading < 0 then l.negativeMark else l.positiveMark
    String.ofList (digits.take 1) ++ point ++ mark ++ toString leading.natAbs
  else if 0 ≤ d.exponent then String.ofList digits ++ zeros d.exponent.toNat ++ ".0"
  else if 0 ≤ leading then
    let whole := leading.toNat + 1
    String.ofList (digits.take whole) ++ "." ++ String.ofList (digits.drop whole)
  else "0." ++ zeros (-leading - 1).toNat ++ String.ofList digits

/-- The text of a finite number. -/
def text? (x : Binary64) : Option String :=
  match x.meaning with
  | .finite s m e =>
    let sign := if s then "-" else ""
    if m = 0 then some (sign ++ "0.0") else some (sign ++ (shortest m e).write layout)
  | _ => none

end SalesQuery.Binary64
