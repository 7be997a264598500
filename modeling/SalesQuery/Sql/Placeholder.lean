import SalesQuery.Overflow
import SalesQuery.Text.Ascii

/-!
# Scanning for placeholders

`maxPlaceholder` is the greatest `n` of the placeholders `$n` in a text. A number is held in 64 bits
while its digits are read, and the scan breaks off at a digit with which it no longer fits.
-/

namespace SalesQuery

/-- Appends a digit to a number. -/
def appendDigit (n : UInt64) (d : Nat) : Checked UInt64 := fit64 (n.toNat * 10 + d)

/-- Reads on with the greatest number so far, and with the number under way if the last characters
are a dollar sign and digits. -/
def scanPlaceholders (greatest : UInt64) : Option (Option UInt64) → List Char → Checked UInt64
  | some (some n), [] => .ok (max greatest n)
  | _, [] => .ok greatest
  | current, c :: rest =>
    match current, Text.digit? c with
    | some n, some d => do
      let n ← appendDigit (n.getD 0) d
      scanPlaceholders greatest (some (some n)) rest
    | none, some _ => scanPlaceholders greatest none rest
    | current, none =>
      let greatest := match current with
        | some (some n) => max greatest n
        | _ => greatest
      scanPlaceholders greatest (if c = '$' then some none else none) rest

/-- The greatest number that follows a dollar sign in the text, or zero. -/
def maxPlaceholder (sql : String) : Checked Nat :=
  UInt64.toNat <$> scanPlaceholders 0 none sql.toList

end SalesQuery
