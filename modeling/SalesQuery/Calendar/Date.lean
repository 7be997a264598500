/-!
# Calendar days

A `Date` is a day of the proleptic Gregorian calendar, within the years that the service handles.
Days are ordered by year, month and day. A day is written `YYYY-MM-DD`; a year outside the four
digits carries its sign.
-/

namespace SalesQuery

namespace Calendar

/-- Whether a year has a twenty-ninth of February. -/
def isLeap (year : Int) : Bool := year % 4 = 0 && (year % 100 ≠ 0 || year % 400 = 0)

/-- The number of days of a month. -/
def daysIn (year : Int) (month : Nat) : Nat :=
  if month = 2 then if isLeap year then 29 else 28
  else if month = 4 ∨ month = 6 ∨ month = 9 ∨ month = 11 then 30
  else 31

/-- The first year of the calendar. -/
def minYear : Int := -262143

/-- The last year of the calendar. -/
def maxYear : Int := 262142

/-- The three numbers name a day of the calendar. -/
def IsDay (year : Int) (month day : Nat) : Prop :=
  (minYear ≤ year ∧ year ≤ maxYear) ∧ (1 ≤ month ∧ month ≤ 12) ∧ 1 ≤ day ∧ day ≤ daysIn year month

instance (year : Int) (month day : Nat) : Decidable (IsDay year month day) :=
  inferInstanceAs (Decidable (_ ∧ _))

end Calendar

/-- A day of the calendar. -/
structure Date where
  /-- The year; zero is the year before year one. -/
  year : Int
  /-- The month, from one. -/
  month : Nat
  /-- The day of the month, from one. -/
  day : Nat
  /-- The day exists. -/
  exists_day : Calendar.IsDay year month day
deriving DecidableEq

namespace Date

/-- The day with the given numbers, if there is one. -/
def ofYMD? (year : Int) (month day : Nat) : Option Date :=
  if h : Calendar.IsDay year month day then some ⟨year, month, day, h⟩ else none

/-- Days are ordered by year, then month, then day. -/
instance : LT Date where
  lt a b := a.year < b.year ∨ a.year = b.year ∧ (a.month < b.month ∨
    a.month = b.month ∧ a.day < b.day)

instance (a b : Date) : Decidable (a < b) :=
  inferInstanceAs (Decidable (_ ∨ _))

/-- A natural number with zeros in front, to the given width. -/
def padded (width n : Nat) : String :=
  let digits := toString n
  String.ofList (List.replicate (width - digits.length) '0') ++ digits

/-- The written form of a year: four digits, or a sign and at least four digits. -/
def yearText (year : Int) : String :=
  if year < 0 then "-" ++ padded 4 year.natAbs
  else if year ≤ 9999 then padded 4 year.natAbs
  else "+" ++ padded 4 year.natAbs

/-- The written form of a day. -/
def text (d : Date) : String :=
  yearText d.year ++ "-" ++ padded 2 d.month ++ "-" ++ padded 2 d.day

instance : ToString Date := ⟨text⟩

end Date

end SalesQuery
