import SalesQuery.Proofs.DateText
import SalesQuery.Proofs.RequestSpelling

/-!
# How days are spelled in filters

`WritesDay` is the form `YYYY-MM-DD`. A text of that form, with blanks around it or not, is read as
the day that it writes if there is one, and as no day otherwise (`Date.ofFilterText?_writesDay`).
`SpellsDay` is a wider form, in which numbers may be shorter, a year may have a sign, and blanks may
stand before a number. Nothing beyond it is read as a day (`Date.spellsDay_of_ofFilterText?`).
-/

namespace SalesQuery

open Text (IsRun isBlank Padded)

/-- The text is a run of digits that has the value. -/
structure WritesNumber (l : List Char) (n : Nat) : Prop where
  /-- The text is a run of digits. -/
  run : IsRun l
  /-- It has the value. -/
  value : Nat.ofDigitChars 10 l 0 = n

instance (l : List Char) (n : Nat) : Decidable (WritesNumber l n) :=
  decidable_of_iff (IsRun l ∧ Nat.ofDigitChars 10 l 0 = n)
    ⟨fun ⟨hrun, hvalue⟩ => ⟨hrun, hvalue⟩, fun ⟨hrun, hvalue⟩ => ⟨hrun, hvalue⟩⟩

/-- The text writes the three numbers as `YYYY-MM-DD`. -/
def WritesDay (s : String) (year month day : Nat) : Prop :=
  ∃ y m d, s.toList = y ++ '-' :: (m ++ '-' :: d) ∧
    (WritesNumber y year ∧ y.length = 4) ∧ (WritesNumber m month ∧ m.length = 2) ∧
    WritesNumber d day ∧ d.length = 2

/-- The text is a year: up to four digits, or a sign and any number of digits. -/
inductive WritesYear : List Char → Int → Prop
  /-- A year without a sign. -/
  | plain {l : List Char} {n : Nat} (h : WritesNumber l n) (hfour : l.length ≤ 4) : WritesYear l n
  /-- A year after a plus sign. -/
  | plus {l : List Char} {n : Nat} (h : WritesNumber l n) : WritesYear ('+' :: l) n
  /-- A year after a minus sign. -/
  | minus {l : List Char} {n : Nat} (h : WritesNumber l n) : WritesYear ('-' :: l) (-n)

/-- The text is the year, the month and the day with dashes between them, where the month and the day
have one or two digits, and blanks may stand before them. -/
def SpellsDay (s : String) (year : Int) (month day : Nat) : Prop :=
  ∃ y before m before' d, s.toList = y ++ '-' :: (before ++ m ++ '-' :: (before' ++ d)) ∧
    (∀ c ∈ before, isBlank c) ∧ (∀ c ∈ before', isBlank c) ∧ WritesYear y year ∧
    (WritesNumber m month ∧ m.length ≤ 2) ∧ WritesNumber d day ∧ d.length ≤ 2

/-- A text of the form `YYYY-MM-DD` has ten characters. -/
theorem WritesDay.length_eq {s : String} {year month day : Nat} (h : WritesDay s year month day) :
    s.length = 10 := by
  obtain ⟨y, m, d, hs, ⟨-, hy⟩, ⟨-, hm⟩, -, hd⟩ := h
  rw [← String.length_toList, hs]
  simp only [List.length_append, List.length_cons]
  omega

namespace Date

/-! ## Numbers, years and dashes -/

/-- A written number is read up to its end. -/
theorem scanNumber_writesNumber {width : Option Nat} {l rest : List Char} {n : Nat}
    (h : WritesNumber l n) (hr : startsWithDigit rest = false)
    (hwidth : ∀ w ∈ width, l.length ≤ w) : scanNumber width (l ++ rest) = some (n, rest) := by
  rw [scanNumber_run h.run hr hwidth, Text.ofDigits_digitValues, h.value]

/-- What is read as a number is one that is written there. -/
theorem writesNumber_of_scanNumber {width : Option Nat} {l rest : List Char} {n : Nat}
    (h : scanNumber width l = some (n, rest)) :
    ∃ run, l = run ++ rest ∧ WritesNumber run n ∧ ∀ w ∈ width, run.length ≤ w := by
  obtain ⟨digits, after, rfl, hdigits, hafter⟩ := Text.exists_eq_digits_append l
  have hspan : Text.spanDigits (digits ++ after) = (Text.digitValues digits, after) :=
    spanDigits_append hdigits hafter
  -- Whatever part of the digits is taken, it is what is left out of the rest.
  have htaken {run left : List Char} (hrun : digits = run ++ left)
      (h : (if (Text.digitValues run).isEmpty then none else
        some (Text.ofDigits (Text.digitValues run),
          (digits ++ after).drop (Text.digitValues run).length)) = some (n, rest)) :
      digits ++ after = run ++ rest ∧ WritesNumber run n := by
    have hlength : (Text.digitValues run).length = run.length := List.length_map ..
    split at h
    · contradiction
    · rename_i hne
      obtain ⟨hvalue, rfl⟩ := Prod.mk.inj (Option.some.inj h)
      have hsome : run ≠ [] := by
        rintro rfl
        exact hne rfl
      refine ⟨?_, ⟨hsome, fun c hc => hdigits c ?_⟩, ?_⟩
      · rw [hrun, hlength, List.append_assoc, List.drop_left]
      · rw [hrun]
        exact List.mem_append_left left hc
      · rw [← Text.ofDigits_digitValues, hvalue]
  unfold scanNumber at h
  rw [hspan] at h
  cases width with
  | none =>
    obtain ⟨heq, hnumber⟩ := htaken (List.append_nil digits).symm h
    exact ⟨digits, heq, hnumber, nofun⟩
  | some w =>
    have htake : (Text.digitValues digits).take w = Text.digitValues (digits.take w) :=
      (List.map_take ..).symm
    simp only [htake] at h
    obtain ⟨heq, hnumber⟩ := htaken (List.take_append_drop w digits).symm h
    refine ⟨digits.take w, heq, hnumber, fun w' hw' => ?_⟩
    obtain rfl := Option.some.inj hw'
    exact List.length_take_le ..

/-- What is read as a year is one. -/
theorem writesYear_of_scanYear {l rest : List Char} {year : Int}
    (h : scanYear l = some (year, rest)) : ∃ y, l = y ++ rest ∧ WritesYear y year := by
  unfold scanYear at h
  split at h
  · obtain ⟨⟨n, left⟩, hn, heq⟩ := Option.map_eq_some_iff.mp h
    obtain ⟨rfl, rfl⟩ := Prod.mk.inj heq
    obtain ⟨run, rfl, hrun, -⟩ := writesNumber_of_scanNumber hn
    exact ⟨'-' :: run, rfl, .minus hrun⟩
  · obtain ⟨⟨n, left⟩, hn, heq⟩ := Option.map_eq_some_iff.mp h
    obtain ⟨rfl, rfl⟩ := Prod.mk.inj heq
    obtain ⟨run, rfl, hrun, -⟩ := writesNumber_of_scanNumber hn
    exact ⟨'+' :: run, rfl, .plus hrun⟩
  · obtain ⟨⟨n, left⟩, hn, heq⟩ := Option.map_eq_some_iff.mp h
    obtain ⟨rfl, rfl⟩ := Prod.mk.inj heq
    obtain ⟨run, rfl, hrun, hfour⟩ := writesNumber_of_scanNumber hn
    exact ⟨run, rfl, .plain hrun (hfour 4 rfl)⟩

/-- Where no blanks are allowed, what is read as a dash is one. -/
theorem eq_cons_of_scanDash {l rest : List Char} (h : scanDash false l = some rest) :
    l = '-' :: rest := by
  rw [scanDash, if_neg Bool.false_ne_true] at h
  split at h
  · exact congrArg _ (Option.some.inj h)
  · contradiction

/-- Text is its blanks at the start and what is left of it. -/
theorem exists_blanks_append (l : List Char) :
    ∃ blanks, (∀ c ∈ blanks, isBlank c) ∧ l = blanks ++ l.dropWhile isBlank :=
  ⟨l.takeWhile isBlank, fun _ => List.mem_takeWhile_imp, List.takeWhile_append_dropWhile.symm⟩

/-! ## Days -/

/-- Numbers written as `YYYY-MM-DD` are read as the day that they name, if there is one. -/
theorem scanDate_writesDay {s : String} {year month day : Nat} (h : WritesDay s year month day) :
    scanDate false s.toList = ofYMD? year month day := by
  obtain ⟨y, m, d, hs, ⟨hy, hfour⟩, ⟨hm, hmonth⟩, hd, hday⟩ := h
  have hyear : scanYear (y ++ '-' :: (m ++ '-' :: d)) =
      some ((year : Int), '-' :: (m ++ '-' :: d)) := by
    rw [scanYear_run hy.run rfl (Nat.le_of_eq hfour), Text.ofDigits_digitValues, hy.value]
  have hwidth {l : List Char} (hl : l.length = 2) : ∀ w ∈ some 2, l.length ≤ w := by
    intro w hw
    obtain rfl := Option.some.inj hw
    exact Nat.le_of_eq hl
  have hmiddle : scanNumber (some 2) (m ++ '-' :: d) = some (month, '-' :: d) :=
    scanNumber_writesNumber hm rfl (hwidth hmonth)
  have hlast : scanNumber (some 2) d = some (day, []) := by
    rw [← List.append_nil d]
    exact scanNumber_writesNumber hd rfl (hwidth hday)
  have hend : d.dropWhile isBlank = d := by simpa using dropWhile_isBlank_run hd.run []
  unfold scanDate
  rw [hs, dropWhile_isBlank_run hy.run, hyear]
  simp only [Option.bind_eq_bind, Option.bind_some, scanDash_dash, dropWhile_isBlank_run hm.run,
    hmiddle, hend, hlast]
  rfl

/-- A day that three numbers name has these numbers. -/
theorem eq_of_ofYMD? {year : Int} {month day : Nat} {d : Date}
    (h : ofYMD? year month day = some d) : d.year = year ∧ d.month = month ∧ d.day = day := by
  rw [ofYMD?] at h
  split at h
  · obtain rfl := Option.some.inj h
    exact ⟨rfl, rfl, rfl⟩
  · contradiction

/-- What is read as a day spells it, after blanks. -/
theorem spellsDay_of_scanDate {l : List Char} {d : Date} (h : scanDate false l = some d) :
    ∃ blanks s, (∀ c ∈ blanks, isBlank c) ∧ l = blanks ++ String.toList s ∧
      SpellsDay s d.year d.month d.day := by
  unfold scanDate at h
  simp only [Option.bind_eq_bind, Option.bind_eq_some_iff, Bool.false_eq_true, if_false] at h
  obtain ⟨⟨year, l₁⟩, hyear, l₂, hdash, ⟨month, l₃⟩, hmonth, l₄, hdash', ⟨day, l₅⟩, hday, h⟩ := h
  obtain ⟨blanks, hblanks, hl⟩ := exists_blanks_append l
  obtain ⟨before, hbefore, hl₂⟩ := exists_blanks_append l₂
  obtain ⟨before', hbefore', hl₄⟩ := exists_blanks_append l₄
  obtain ⟨y, hy, hwrites⟩ := writesYear_of_scanYear hyear
  obtain ⟨m, hm, hm₂, hwidth⟩ := writesNumber_of_scanNumber hmonth
  obtain ⟨n, hn, hn₂, hwidth'⟩ := writesNumber_of_scanNumber hday
  have hl₁ : l₁ = '-' :: l₂ := eq_cons_of_scanDash hdash
  have hl₃ : l₃ = '-' :: l₄ := eq_cons_of_scanDash hdash'
  split at h
  · rename_i hnothing
    obtain rfl : l₅ = [] := List.isEmpty_iff.mp hnothing
    obtain ⟨rfl, rfl, rfl⟩ := eq_of_ofYMD? h
    refine ⟨blanks, String.ofList (y ++ '-' :: (before ++ m ++ '-' :: (before' ++ n))), hblanks, ?_,
      y, before, m, before', n, String.toList_ofList, hbefore, hbefore', hwrites,
      ⟨hm₂, hwidth 2 rfl⟩, hn₂, hwidth' 2 rfl⟩
    rw [String.toList_ofList, hl, hy, hl₁, hl₂, hm, hl₃, hl₄, hn]
    simp
  · contradiction

/-! ## Filter texts -/

/-- A text of the form `YYYY-MM-DD` is not trimmed. -/
theorem trimChars_writesDay {s : String} {year month day : Nat} (h : WritesDay s year month day) :
    Text.trimChars s.toList = s.toList := by
  obtain ⟨y, m, d, hs, ⟨hy, -⟩, -, hd, -⟩ := h
  have hend : s.toList = (y ++ '-' :: (m ++ ['-'])) ++ d := by rw [hs]; simp
  refine trimChars_run hend hd.run ?_
  rw [hs]
  exact head?_run hy.run _

/-- With blanks around it or not, a text of the form `YYYY-MM-DD` is read as the day that it names,
if there is one. -/
theorem ofFilterText?_writesDay {core raw : String} {year month day : Nat}
    (hpadded : Padded core raw) (h : WritesDay core year month day) :
    ofFilterText? raw = ofYMD? year month day := by
  have htrim : Text.trimChars raw.toList = Text.trimChars core.toList := by
    have heq := congrArg String.toList hpadded.trim_eq
    rwa [Text.trim, Text.trim, String.toList_ofList, String.toList_ofList] at heq
  rw [ofFilterText?, htrim, trimChars_writesDay h, scanDate_writesDay h]

/-- What is read as a day spells it, with blanks around. -/
theorem spellsDay_of_ofFilterText? {raw : String} {d : Date} (h : ofFilterText? raw = some d) :
    ∃ core, Padded core raw ∧ SpellsDay core d.year d.month d.day := by
  obtain ⟨blanks, core, hblanks, hcore, hspells⟩ := spellsDay_of_scanDate h
  obtain ⟨before, after, hbefore, hafter, hraw⟩ := Text.padded_trim raw
  refine ⟨core, ⟨before ++ blanks, after, fun c hc => ?_, hafter, ?_⟩, hspells⟩
  · exact (List.mem_append.mp hc).elim (hbefore c) (hblanks c)
  · rw [hraw, Text.trim, String.toList_ofList, hcore]
    simp

end Date

end SalesQuery
