import Mathlib.Algebra.Group.Nat.Defs
import SalesQuery.Calendar.DateText
import SalesQuery.Proofs.DigitRuns

/-!
# The text of a day

The text of a day is read back as the day, both where a request gives a date and where a filter does
(`Date.ofText?_text`, `Date.ofFilterText?_text`). So two days with one text are the same day.
-/

namespace SalesQuery.Date

open Text

/-! ## Numbers in dates -/

/-- A padded number is a run of its digits, with zeros in front. -/
theorem toList_padded (width n : Nat) :
    (padded width n).toList =
      List.replicate (width - (Nat.toDigits 10 n).length) '0' ++ Nat.toDigits 10 n := by
  have htext : (toString n).toList = Nat.toDigits 10 n := Nat.toList_repr
  have hlength : (toString n).length = (Nat.toDigits 10 n).length := by
    rw [← htext, String.length_toList]
  rw [padded, String.toList_append, String.toList_ofList, hlength, htext]

/-- A padded number is a run. -/
theorem isRun_padded (width n : Nat) : IsRun (padded width n).toList := by
  rw [toList_padded]
  exact (isRun_toDigits n).prepend (isDigit_of_mem_replicate _)

/-- A padded number has its value. -/
theorem ofDigits_padded (width n : Nat) :
    ofDigits (digitValues (padded width n).toList) = n := by
  rw [ofDigits_digitValues, toList_padded, Nat.ofDigitChars_append,
    Nat.ofDigitChars_replicate_zero, Nat.mul_zero, Nat.ofDigitChars_ten_toDigits]

/-- A number that fits the width is padded to the width. -/
theorem length_padded {width n : Nat} (hwidth : 0 < width) (h : n < 10 ^ width) :
    (padded width n).toList.length = width := by
  have hle : (Nat.toDigits 10 n).length ≤ width :=
    (Nat.length_toDigits_le_iff (by decide) hwidth).mpr h
  rw [toList_padded, List.length_append, List.length_replicate]
  omega

/-- A run is read up to its end as its value, unless it is wider than may be read. -/
theorem scanNumber_run {width : Option Nat} {run rest : List Char} (hrun : IsRun run)
    (hr : startsWithDigit rest = false) (hwidth : ∀ w ∈ width, run.length ≤ w) :
    scanNumber width (run ++ rest) = some (ofDigits (digitValues run), rest) := by
  have hlength : (digitValues run).length = run.length := List.length_map ..
  have hdigits : ¬(digitValues run).isEmpty := by
    rw [List.isEmpty_iff]
    exact hrun.digitValues_ne_nil
  unfold scanNumber
  rw [hrun.spanDigits_append hr]
  cases width with
  | none => simp only [if_neg hdigits, hlength, List.drop_left]
  | some w =>
    have htake : (digitValues run).take w = digitValues run :=
      List.take_of_length_le (Nat.le_trans (Nat.le_of_eq hlength) (hwidth w rfl))
    simp only [htake, if_neg hdigits, hlength, List.drop_left]

/-- A padded number is read back up to the first character that is no digit, unless it is wider than
may be read. -/
theorem scanNumber_padded {width : Option Nat} (pad n : Nat) {rest : List Char}
    (hr : startsWithDigit rest = false)
    (hwidth : ∀ w ∈ width, (padded pad n).toList.length ≤ w) :
    scanNumber width ((padded pad n).toList ++ rest) = some (n, rest) := by
  rw [scanNumber_run (isRun_padded pad n) hr hwidth, ofDigits_padded]

/-! ## Years -/

/-- A run of at most four digits is read as a year without a sign. -/
theorem scanYear_run {run rest : List Char} (hrun : IsRun run) (hr : startsWithDigit rest = false)
    (hfour : run.length ≤ 4) :
    scanYear (run ++ rest) = some ((ofDigits (digitValues run) : Int), rest) := by
  have hnumber : scanNumber (some 4) (run ++ rest) = some (ofDigits (digitValues run), rest) := by
    refine scanNumber_run hrun hr fun w hw => ?_
    obtain rfl := Option.some.inj hw
    exact hfour
  -- The first character is a digit, so it is no sign.
  obtain ⟨c, l, rfl⟩ := List.exists_cons_of_ne_nil hrun.ne_nil
  have hc : c.isDigit := hrun.isDigit c (List.mem_cons_self ..)
  have hsign : c ≠ '-' ∧ c ≠ '+' := by
    constructor
    all_goals
      rintro rfl
      exact absurd hc (by decide)
  rw [List.cons_append] at hnumber ⊢
  unfold scanYear
  split
  · rename_i heq
    exact absurd (List.cons.inj heq).1 hsign.1
  · rename_i heq
    exact absurd (List.cons.inj heq).1 hsign.2
  · rw [hnumber, Option.map_some]

/-- A year is read back, with its sign if it has one. -/
theorem scanYear_yearText (year : Int) {rest : List Char} (hr : startsWithDigit rest = false) :
    scanYear ((yearText year).toList ++ rest) = some (year, rest) := by
  have hfree : scanNumber none ((padded 4 year.natAbs).toList ++ rest) =
      some (year.natAbs, rest) := scanNumber_padded 4 year.natAbs hr (by simp)
  unfold yearText
  split
  · have hyear : -(year.natAbs : Int) = year := by omega
    rw [String.toList_append, show "-".toList = ['-'] from rfl, List.singleton_append,
      List.cons_append, scanYear, hfree, Option.map_some]
    dsimp only
    rw [hyear]
  · have hyear : (year.natAbs : Int) = year := by omega
    split
    · have hlength : (padded 4 year.natAbs).toList.length ≤ 4 :=
        Nat.le_of_eq (length_padded (by decide) (by omega))
      rw [scanYear_run (isRun_padded 4 year.natAbs) hr hlength, ofDigits_padded, hyear]
    · rw [String.toList_append, show "+".toList = ['+'] from rfl, List.singleton_append,
        List.cons_append, scanYear, hfree, Option.map_some]
      dsimp only
      rw [hyear]

/-! ## Days -/

/-- The characters of dates are not blank. -/
theorem isBlank_of_isDigit {c : Char} (h : c.isDigit ∨ c = '-' ∨ c = '+') : isBlank c = false := by
  have hrange : 43 ≤ c.toNat ∧ c.toNat ≤ 57 := by
    obtain h | rfl | rfl := h
    · have hdigit := Char.isDigit_iff_toNat.mp h
      exact ⟨Nat.le_trans (by decide) hdigit.1, hdigit.2⟩
    · decide
    · decide
  simp [isBlank, blankRanges]
  omega

/-- Text that does not start with a blank keeps its start. -/
theorem dropWhile_isBlank {l : List Char} (h : ∀ c ∈ l.head?, isBlank c = false) :
    l.dropWhile isBlank = l := by
  cases l with
  | nil => rfl
  | cons c l => rw [List.dropWhile_cons_of_neg (by simp [h c rfl])]

/-- The first character of text that starts with a run is not blank. -/
theorem head?_run {l : List Char} (hl : IsRun l) (rest : List Char) :
    ∀ c ∈ (l ++ rest).head?, isBlank c = false := by
  obtain ⟨c, l', rfl⟩ := List.exists_cons_of_ne_nil hl.ne_nil
  intro d hd
  obtain rfl := Option.some.inj hd
  exact isBlank_of_isDigit (.inl (hl.isDigit c (List.mem_cons_self ..)))

/-- Text that starts with a run does not start with a blank. -/
theorem dropWhile_isBlank_run {l : List Char} (hl : IsRun l) (rest : List Char) :
    (l ++ rest).dropWhile isBlank = l ++ rest :=
  dropWhile_isBlank (head?_run hl rest)

/-- Text that starts with no blank and ends with a run is not trimmed. -/
theorem trimChars_run {l before run : List Char} (hl : l = before ++ run) (hrun : IsRun run)
    (hfirst : ∀ c ∈ l.head?, isBlank c = false) : trimChars l = l := by
  have hlast : IsRun run.reverse :=
    ⟨by simpa using hrun.ne_nil, fun c hc => hrun.isDigit c (List.mem_reverse.mp hc)⟩
  rw [trimChars, dropWhile_isBlank hfirst, hl, List.reverse_append, dropWhile_isBlank_run hlast,
    ← List.reverse_append, List.reverse_reverse]

/-- A year starts with a sign or a digit. -/
theorem exists_yearText_cons (year : Int) :
    ∃ c l, (yearText year).toList = c :: l ∧ isBlank c = false := by
  obtain ⟨hne, hdigit⟩ := isRun_padded 4 year.natAbs
  obtain ⟨c, l, hl⟩ := List.exists_cons_of_ne_nil hne
  unfold yearText
  split
  · exact ⟨'-', _, by rw [String.toList_append]; rfl, by decide⟩
  · split
    · exact ⟨c, l, hl, isBlank_of_isDigit (.inl (hdigit c (by simp [hl])))⟩
    · exact ⟨'+', _, by rw [String.toList_append]; rfl, by decide⟩

/-- The characters of a date. -/
theorem toList_text (d : Date) :
    d.text.toList = (yearText d.year).toList ++
      '-' :: ((padded 2 d.month).toList ++ '-' :: (padded 2 d.day).toList) := by
  simp [text, String.toList_append]

/-- The first character of a date is not blank. -/
theorem head?_text (d : Date) : ∀ c ∈ d.text.toList.head?, isBlank c = false := by
  obtain ⟨c, l, hl, hc⟩ := exists_yearText_cons d.year
  rw [toList_text, hl]
  intro e he
  obtain rfl := Option.some.inj he
  exact hc

/-- A dash is read as one, whether blanks are allowed before it or not. -/
theorem scanDash_dash (blanks : Bool) (rest : List Char) :
    scanDash blanks ('-' :: rest) = some rest := by
  cases blanks with
  | true =>
    have hdrop : ('-' :: rest).dropWhile isBlank = '-' :: rest :=
      dropWhile_isBlank fun c hc => by
        obtain rfl := Option.some.inj hc
        decide
    rw [scanDash, if_pos rfl, hdrop]
    rfl
  | false => rfl

/-- The text of a day is read back. -/
theorem scanDate_toList_text (blanks : Bool) (d : Date) :
    scanDate blanks d.text.toList = some d := by
  have hday := d.exists_day
  have hmonths : d.month < 10 ^ 2 := by
    have := hday.2.1.2
    omega
  have hdays : d.day < 10 ^ 2 := by
    have hle := hday.2.2.2
    have hmost : Calendar.daysIn d.year d.month ≤ 31 := by
      unfold Calendar.daysIn
      split
      · split <;> decide
      · split <;> decide
    omega
  have htwo (n : Nat) (hn : n < 10 ^ 2) : ∀ w ∈ some 2, (padded 2 n).toList.length ≤ w := by
    intro w hw
    obtain rfl := Option.some.inj hw
    exact Nat.le_of_eq (length_padded (by decide) hn)
  have hend : (padded 2 d.day).toList.dropWhile isBlank = (padded 2 d.day).toList := by
    simpa using dropWhile_isBlank_run (isRun_padded 2 d.day) []
  have hlast : scanNumber (some 2) (padded 2 d.day).toList = some (d.day, []) := by
    rw [← List.append_nil (padded 2 d.day).toList]
    exact scanNumber_padded 2 d.day rfl (htwo d.day hdays)
  have hmiddle : scanNumber (some 2)
      ((padded 2 d.month).toList ++ '-' :: (padded 2 d.day).toList) =
      some (d.month, '-' :: (padded 2 d.day).toList) :=
    scanNumber_padded 2 d.month rfl (htwo d.month hmonths)
  have hnothing : (if blanks then ([] : List Char).dropWhile isBlank else []) = [] := by
    cases blanks <;> rfl
  unfold scanDate
  rw [dropWhile_isBlank d.head?_text, toList_text, scanYear_yearText d.year rfl]
  simp only [Option.bind_eq_bind, Option.bind_some, scanDash_dash,
    dropWhile_isBlank_run (isRun_padded _ _), hmiddle, hend, hlast, hnothing]
  exact dif_pos hday

/-- The text of a day is the date that a request gives by it. -/
theorem ofText?_text (d : Date) : ofText? d.text = some d := scanDate_toList_text true d

/-- The text of a day is the date that a filter gives by it. -/
theorem ofFilterText?_text (d : Date) : ofFilterText? d.text = some d := by
  have hend : d.text.toList = ((yearText d.year).toList ++ '-' :: ((padded 2 d.month).toList ++ ['-']))
      ++ (padded 2 d.day).toList := by
    rw [toList_text]
    simp
  rw [ofFilterText?, trimChars_run hend (isRun_padded 2 d.day) d.head?_text]
  exact scanDate_toList_text false d

/-- Days with one text are one day. -/
theorem text_inj {d e : Date} (h : d.text = e.text) : d = e := by
  have hread := ofText?_text d
  rw [h, ofText?_text] at hread
  exact (Option.some.inj hread).symm

end SalesQuery.Date
