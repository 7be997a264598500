/-!
# ASCII letters and digits

Keywords, operators and column names are compared without regard to the case of ASCII letters;
every other character stands for itself.
-/

namespace SalesQuery.Text

/-- The text with its ASCII letters in lower case. -/
def lowerAscii (s : String) : String :=
  String.ofList (s.toList.map Char.toLower)

/-- Equality up to the case of ASCII letters. -/
def SameLetters (s t : String) : Prop :=
  lowerAscii s = lowerAscii t

instance (s t : String) : Decidable (SameLetters s t) :=
  inferInstanceAs (Decidable (lowerAscii s = lowerAscii t))

/-- The value of a decimal digit. -/
def digit? (c : Char) : Option Nat :=
  if c.isDigit then some (c.toNat - '0'.toNat) else none

/-- The value of a hexadecimal digit of either case. -/
def hexDigit? (c : Char) : Option Nat :=
  if c.isDigit then some (c.toNat - '0'.toNat)
  else if 'a' ≤ c ∧ c ≤ 'f' then some (c.toNat - 'a'.toNat + 10)
  else if 'A' ≤ c ∧ c ≤ 'F' then some (c.toNat - 'A'.toNat + 10)
  else none

/-- The number that a list of decimal digits writes, most significant first. -/
def ofDigits (digits : List Nat) : Nat :=
  digits.foldl (fun n d => 10 * n + d) 0

/-- The digits that a text starts with, and what follows them. -/
def spanDigits : List Char → List Nat × List Char
  | [] => ([], [])
  | c :: rest =>
    match digit? c with
    | none => ([], c :: rest)
    | some d =>
      let (digits, after) := spanDigits rest
      (d :: digits, after)

/-- The number of a text that consists of decimal digits only, with at least one of them. -/
def natural? (s : List Char) : Option Nat :=
  match spanDigits s with
  | (d :: digits, []) => some (ofDigits (d :: digits))
  | _ => none

/-- The lower case hexadecimal digit of a number below sixteen. -/
def hexDigit (n : Nat) : Char :=
  if n < 10 then Char.ofNat (n + '0'.toNat) else Char.ofNat (n - 10 + 'a'.toNat)

end SalesQuery.Text
