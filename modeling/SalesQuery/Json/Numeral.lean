import SalesQuery.Json.Value
import SalesQuery.Text.Ascii

/-!
# Numerals

The text of a JSON number and the number it stands for. An integer that fits 64 bits is read
exactly. Any other numeral keeps the leading digits that fit an unsigned 64-bit significand, scales
that significand by one power of ten, and rounds after each of these steps; a result beyond the
finite doubles is refused.
-/

namespace SalesQuery.Json

/-- The text of a number, taken apart. -/
structure Numeral where
  /-- Whether a minus sign leads. -/
  negative : Bool
  /-- The digits before the point. -/
  whole : List Nat
  /-- The digits after the point, none without a point. -/
  fraction : List Nat
  /-- The exponent, if one is written. -/
  exponent : Option Int
deriving DecidableEq, Repr

namespace Numeral

/-- Reads a fraction: a point and at least one digit. Without a point there is none. -/
def scanFraction : List Char → Option (List Nat × List Char)
  | '.' :: rest =>
    match Text.spanDigits rest with
    | ([], _) => none
    | (digits, after) => some (digits, after)
  | rest => some ([], rest)

/-- Reads the digits of an exponent. -/
def scanExponentDigits (negative : Bool) (l : List Char) : Option (Option Int × List Char) :=
  match Text.spanDigits l with
  | ([], _) => none
  | (digits, after) =>
    let n : Int := Text.ofDigits digits
    some (some (if negative then -n else n), after)

/-- Reads an exponent: its mark, an optional sign and at least one digit. Without a mark there is
none. -/
def scanExponent : List Char → Option (Option Int × List Char)
  | c :: rest =>
    if c = 'e' ∨ c = 'E' then
      match rest with
      | '-' :: rest => scanExponentDigits true rest
      | '+' :: rest => scanExponentDigits false rest
      | rest => scanExponentDigits false rest
    else some (none, c :: rest)
  | [] => some (none, [])

/-- Reads a numeral without its sign. A zero that leads stands alone before the point. -/
def scanUnsigned (negative : Bool) (l : List Char) : Option (Numeral × List Char) := do
  let (whole, rest) := Text.spanDigits l
  if whole.isEmpty ∨ (whole.head? = some 0 ∧ 1 < whole.length) then none
  let (fraction, rest) ← scanFraction rest
  let (exponent, rest) ← scanExponent rest
  return (⟨negative, whole, fraction, exponent⟩, rest)

/-- Reads a numeral at the start of a text. -/
def scan : List Char → Option (Numeral × List Char)
  | '-' :: rest => scanUnsigned true rest
  | rest => scanUnsigned false rest

/-- Appends a digit to a significand, unless it would no longer fit 64 bits. -/
def extend? (significand digit : Nat) : Option Nat :=
  if 10 * significand + digit < Nat.pow 2 64 then some (10 * significand + digit) else none

/-- The significand of the digits before the point, and how many of them it leaves out. From the
first digit that does not fit, all are left out. -/
def wholePart (significand : Nat) : List Nat → Nat × Nat
  | [] => (significand, 0)
  | d :: digits =>
    match extend? significand d with
    | some s => wholePart s digits
    | none => (significand, digits.length + 1)

/-- Continues the significand with the digits after the point, and counts those it takes in. -/
def fractionPart (significand : Nat) : List Nat → Nat × Nat
  | [] => (significand, 0)
  | d :: digits =>
    match extend? significand d with
    | some s =>
      let (s, taken) := fractionPart s digits
      (s, taken + 1)
    | none => (significand, 0)

/-- The power of ten as a double. -/
def powerOfTen (n : Nat) : Binary64 := .nearest false (Nat.pow 10 n) 1

/-- Scales by a power of ten. Below `10^-308` the division is done in parts, until nothing is left;
a result that is not finite is refused. -/
def scale (x : Binary64) (exponent : Int) : Option Binary64 :=
  if exponent < -308 then
    if x.isZero then some x else scale (x / powerOfTen 308) (exponent + 308)
  else if exponent < 0 then some (x / powerOfTen exponent.natAbs)
  else if exponent ≤ 308 then
    let scaled := x * powerOfTen exponent.toNat
    if scaled.isFinite then some scaled else none
  else if x.isZero then some x else none
termination_by exponent.natAbs
decreasing_by omega

/-- The number that a numeral stands for, or nothing if it is out of range. -/
def number? (n : Numeral) : Option Number :=
  let (significand, dropped) := wholePart 0 n.whole
  if n.fraction.isEmpty ∧ n.exponent = none ∧ dropped = 0 ∧
      (n.negative → 0 < significand ∧ significand ≤ Nat.pow 2 63) then
    some (.int (if n.negative then -significand else significand))
  else
    let (significand, taken) := fractionPart significand n.fraction
    let exponent : Int := dropped - taken + n.exponent.getD 0
    (scale (.ofInt significand) exponent).map fun x => .float (if n.negative then -x else x)

end Numeral

end SalesQuery.Json
