import Mathlib.Order.Bounds.Basic
import SalesQuery.Proofs.DigitRuns

/-!
# The greatest placeholder of a text

`WritesPlaceholder` says which numbers a text writes as placeholders: those of the longest runs of
decimal digits right after a dollar sign, of any length. They are the numbers that
`placeholderNumbers` reads (`mem_placeholderNumbers_iff`). The scan holds a number in 64 bits: it
returns the greatest of them exactly if all of them fit, and breaks off exactly if one of them does
not (`maxPlaceholder_exact_iff`).
-/

namespace SalesQuery

open Text (IsRun)

/-- The text writes the number as a placeholder: after some dollar sign there is a run of digits that
has its value, and no further digit follows. -/
def WritesPlaceholder (text : List Char) (n : Nat) : Prop :=
  ∃ before digits after, text = before ++ '$' :: (digits ++ after) ∧ IsRun digits ∧
    startsWithDigit after = false ∧ Nat.ofDigitChars 10 digits 0 = n

/-- The greatest of some numbers, or zero if there are none. -/
def GreatestOrZero (numbers : Set Nat) (n : Nat) : Prop :=
  IsGreatest numbers n ∨ numbers = ∅ ∧ n = 0

/-! ## Which numbers are read -/

/-- What is read at the start of a text is the value of the run of digits there. -/
theorem leadingNumber?_eq_some_iff {l : List Char} {n : Nat} :
    leadingNumber? l = some n ↔
      ∃ digits after, l = digits ++ after ∧ IsRun digits ∧ startsWithDigit after = false ∧
        Nat.ofDigitChars 10 digits 0 = n := by
  constructor
  · intro h
    obtain ⟨digits, after, rfl, hdigits, hafter⟩ := Text.exists_eq_digits_append l
    by_cases hnone : digits = []
    · rw [leadingNumber?, spanDigits_append hdigits hafter, hnone] at h
      contradiction
    · rw [leadingNumber?_append hnone hdigits hafter] at h
      exact ⟨digits, after, rfl, ⟨hnone, hdigits⟩, hafter, Option.some.inj h⟩
  · rintro ⟨digits, after, rfl, hrun, hafter, rfl⟩
    exact leadingNumber?_append hrun.ne_nil hrun.isDigit hafter

/-- The numbers that are read off a text are those that it writes as placeholders. -/
theorem mem_placeholderNumbers_iff {l : List Char} {n : Nat} :
    n ∈ placeholderNumbers l ↔ WritesPlaceholder l n := by
  induction l with
  | nil => simp [placeholderNumbers, WritesPlaceholder]
  | cons c rest ih =>
    have hhere : n ∈ (if c = '$' then (leadingNumber? rest).toList else []) ↔
        c = '$' ∧ leadingNumber? rest = some n := by
      split <;> simp [*]
    rw [placeholderNumbers, List.mem_append, hhere, leadingNumber?_eq_some_iff, ih]
    constructor
    · rintro (⟨rfl, digits, after, rfl, hrun, hafter, hn⟩ |
        ⟨before, digits, after, rfl, hrun, hafter, hn⟩)
      · exact ⟨[], digits, after, rfl, hrun, hafter, hn⟩
      · exact ⟨c :: before, digits, after, rfl, hrun, hafter, hn⟩
    · rintro ⟨before, digits, after, heq, hrun, hafter, hn⟩
      cases before with
      | nil =>
        obtain ⟨rfl, rfl⟩ := List.cons.inj heq
        exact .inl ⟨rfl, digits, after, rfl, hrun, hafter, hn⟩
      | cons c' before =>
        obtain ⟨rfl, rfl⟩ := List.cons.inj heq
        exact .inr ⟨before, digits, after, rfl, hrun, hafter, hn⟩

/-! ## The greatest of them -/

/-- There is at most one greatest number. -/
theorem GreatestOrZero.unique {numbers : Set Nat} {n m : Nat} (h : GreatestOrZero numbers n)
    (h' : GreatestOrZero numbers m) : n = m := by
  obtain h | ⟨hnone, rfl⟩ := h
  · obtain h' | ⟨hnone, rfl⟩ := h'
    · exact h.unique h'
    · exact absurd h.1 (hnone ▸ Set.notMem_empty n)
  · obtain h' | ⟨-, rfl⟩ := h'
    · exact absurd h'.1 (hnone ▸ Set.notMem_empty m)
    · rfl

/-- Keeping the greatest gives a number that was there at the start or came up, and that none of them
exceeds. -/
theorem isGreatest_foldl_max (start : Nat) (numbers : List Nat) :
    IsGreatest (insert start {n | n ∈ numbers}) (numbers.foldl max start) := by
  induction numbers generalizing start with
  | nil => simp
  | cons n numbers ih =>
    obtain ⟨hmem, hupper⟩ := ih (max start n)
    have hfirst := hupper (Set.mem_insert _ _)
    rw [List.foldl_cons]
    constructor
    · obtain hmem | hmem := hmem
      · -- It is what was kept after this number: this number or the one at the start.
        rw [hmem]
        rcases Nat.le_total start n with hle | hle
        · rw [Nat.max_eq_right hle]
          exact .inr List.mem_cons_self
        · rw [Nat.max_eq_left hle]
          exact .inl rfl
      · exact .inr (List.mem_cons_of_mem n hmem)
    · rintro m (rfl | hm)
      · exact Nat.le_trans (Nat.le_max_left _ _) hfirst
      · obtain rfl | hm := List.mem_cons.mp hm
        · exact Nat.le_trans (Nat.le_max_right _ _) hfirst
        · exact hupper (.inr hm)

/-- Keeping the greatest from zero on gives the greatest of the numbers, or zero if there are
none. -/
theorem greatestOrZero_foldl_max (numbers : List Nat) :
    GreatestOrZero {n | n ∈ numbers} (numbers.foldl max 0) := by
  obtain ⟨hmem, hupper⟩ := isGreatest_foldl_max 0 numbers
  have hle : ∀ m ∈ numbers, m ≤ numbers.foldl max 0 := fun m hm =>
    hupper (Set.mem_insert_of_mem 0 hm)
  obtain hzero | hmem := hmem
  · cases numbers with
    | nil => exact .inr ⟨by simp, rfl⟩
    | cons n numbers =>
      -- What is at most zero is zero, so zero is one of the numbers.
      have hn : n = 0 := by
        have hfirst := hle n List.mem_cons_self
        omega
      rw [hzero] at hle ⊢
      exact .inl ⟨hn ▸ List.mem_cons_self, hle⟩
  · exact .inl ⟨hmem, hle⟩

/-- The scan returns the greatest number that the text writes as a placeholder, or zero if it writes
none, exactly if every such number is below `2^64`. It breaks off exactly if one of them is not. -/
theorem maxPlaceholder_exact_iff (sql : String) :
    (∀ n, maxPlaceholder sql = .ok n ↔
      GreatestOrZero {m | WritesPlaceholder sql.toList m} n ∧
        ∀ m, WritesPlaceholder sql.toList m → m < UInt64.size) ∧
    (maxPlaceholder sql = .error ⟨⟩ ↔
      ∃ m, WritesPlaceholder sql.toList m ∧ UInt64.size ≤ m) := by
  have hgreatest := greatestOrZero_foldl_max (placeholderNumbers sql.toList)
  simp only [← mem_placeholderNumbers_iff]
  by_cases hfits : ∀ m ∈ placeholderNumbers sql.toList, m < UInt64.size
  · rw [maxPlaceholder_of_fit hfits]
    refine ⟨fun n => ?_, nofun, ?_⟩
    · rw [Except.ok.injEq]
      constructor
      · rintro rfl
        exact ⟨hgreatest, hfits⟩
      · rintro ⟨h, -⟩
        exact hgreatest.unique h
    · rintro ⟨m, hm, hsize⟩
      exact absurd (hfits m hm) (Nat.not_lt.mpr hsize)
  · push Not at hfits
    obtain ⟨m, hm, hsize⟩ := hfits
    rw [maxPlaceholder_of_size_le hm hsize]
    refine ⟨fun n => ⟨nofun, ?_⟩, fun _ => ⟨m, hm, hsize⟩, fun _ => rfl⟩
    rintro ⟨-, hall⟩
    exact absurd (hall m hm) (Nat.not_lt.mpr hsize)

/-- A text with a placeholder of 65 bits. -/
def widePlaceholder : String := "$18446744073709551616"

/-- The scan of a text whose only placeholder is `2^64` breaks off, although there is a greatest
one. -/
theorem wide_placeholder_unread :
    maxPlaceholder widePlaceholder = .error ⟨⟩ ∧
      GreatestOrZero {n | WritesPlaceholder widePlaceholder.toList n} 18446744073709551616 ∧
      ¬ ∃ n, maxPlaceholder widePlaceholder = .ok n ∧
        GreatestOrZero {n | WritesPlaceholder widePlaceholder.toList n} n := by
  have hnumbers : placeholderNumbers widePlaceholder.toList = [18446744073709551616] := by
    decide
  have hbroken : maxPlaceholder widePlaceholder = .error ⟨⟩ := by
    refine maxPlaceholder_of_size_le (n := 18446744073709551616) ?_ (by decide)
    rw [hnumbers]
    exact List.mem_singleton_self _
  refine ⟨hbroken, ?_, fun ⟨n, hn, _⟩ => ?_⟩
  · simp only [← mem_placeholderNumbers_iff, hnumbers]
    exact greatestOrZero_foldl_max [18446744073709551616]
  · rw [hbroken] at hn
    contradiction

end SalesQuery
