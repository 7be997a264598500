import SalesQuery.Calendar.Date
import SalesQuery.Text.Ascii
import SalesQuery.Text.Blank

/-!
# Reading dates

A date is a year, a month and a day with dashes between them. A year without a sign has at most four
digits, a month and a day at most two, and blanks may stand before each number. Dates of a request
may also have blanks before a dash and at the end (`Date.ofText?`); dates given as filter values may
not (`Date.ofFilterText?`).
-/

namespace SalesQuery.Date

/-- Reads one to `width` digits; without a width, all digits there are. -/
def scanNumber (width : Option Nat) (l : List Char) : Option (Nat × List Char) :=
  let digits := (Text.spanDigits l).1
  let digits := match width with
    | some n => digits.take n
    | none => digits
  if digits.isEmpty then none else some (Text.ofDigits digits, l.drop digits.length)

/-- Reads a year. A sign lifts the limit on its digits. -/
def scanYear : List Char → Option (Int × List Char)
  | '-' :: rest => (scanNumber none rest).map fun (n, rest) => (-(n : Int), rest)
  | '+' :: rest => (scanNumber none rest).map fun (n, rest) => ((n : Int), rest)
  | l => (scanNumber (some 4) l).map fun (n, rest) => ((n : Int), rest)

/-- Reads a dash, after blanks if they are allowed. -/
def scanDash (blanks : Bool) (l : List Char) : Option (List Char) :=
  match if blanks then l.dropWhile Text.isBlank else l with
  | '-' :: rest => some rest
  | _ => none

/-- Reads a date and the end of the text. -/
def scanDate (blanks : Bool) (l : List Char) : Option Date := do
  let (year, l) ← scanYear (l.dropWhile Text.isBlank)
  let l ← scanDash blanks l
  let (month, l) ← scanNumber (some 2) (l.dropWhile Text.isBlank)
  let l ← scanDash blanks l
  let (day, l) ← scanNumber (some 2) (l.dropWhile Text.isBlank)
  let l := if blanks then l.dropWhile Text.isBlank else l
  if l.isEmpty then ofYMD? year month day else none

/-- The date that a text of a request names. -/
def ofText? (s : String) : Option Date := scanDate true s.toList

/-- The date that a filter value names; blanks around it do not count. -/
def ofFilterText? (s : String) : Option Date := scanDate false (Text.trimChars s.toList)

end SalesQuery.Date
