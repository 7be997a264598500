import SalesQuery.Text.Ascii

/-!
# Base64

Four characters of six bits each stand for three bytes. Blanks are passed over; at the end up to two
equals signs may fill the last group, and may be left out.
-/

namespace SalesQuery.Text

/-- The six bits that a character stands for. -/
def sextet? (c : Char) : Option Nat :=
  if 'A' ≤ c ∧ c ≤ 'Z' then some (c.toNat - 'A'.toNat)
  else if 'a' ≤ c ∧ c ≤ 'z' then some (c.toNat - 'a'.toNat + 26)
  else if '0' ≤ c ∧ c ≤ '9' then some (c.toNat - '0'.toNat + 52)
  else if c = '+' then some 62
  else if c = '/' then some 63
  else none

/-- Whether a character is passed over. -/
def isBase64Blank (c : Char) : Bool := c = ' ' || ('\t' ≤ c && c ≤ '\r')

/-- The bytes that groups of six bits stand for; bits that fill no byte are dropped. -/
def bytesOfSextets : List Nat → List UInt8
  | a :: b :: c :: d :: rest =>
    let n := ((a * 64 + b) * 64 + c) * 64 + d
    (n / 65536).toUInt8 :: (n / 256).toUInt8 :: n.toUInt8 :: bytesOfSextets rest
  | [a, b, c] =>
    let n := (a * 64 + b) * 64 + c
    [(n / 1024).toUInt8, (n / 4).toUInt8]
  | [a, b] => [((a * 64 + b) / 16).toUInt8]
  | [_] => []
  | [] => []

/-- The bytes that a text stands for. -/
def base64? (l : List Char) : Option (List UInt8) := do
  let symbols := l.filter fun c => !isBase64Blank c
  let filling := (symbols.reverse.takeWhile (· = '=')).length
  if 2 < filling then none
  else
    let sextets ← (symbols.take (symbols.length - filling)).mapM sextet?
    return bytesOfSextets sextets

end SalesQuery.Text
