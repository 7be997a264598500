import Mathlib.Data.List.Basic
import Mathlib.Data.List.TakeWhile
import SalesQuery.Proofs.PlaceholderText

/-!
# Runs of digits

A run of decimal digits is read up to the first character that is none, and the digits of a number
are a run that has its value. Numerals and dates are made of such runs.
-/

namespace SalesQuery.Text

/-- A run of decimal digits. -/
structure IsRun (l : List Char) : Prop where
  /-- There is at least one. -/
  ne_nil : l ≠ []
  /-- Every character is one. -/
  isDigit : ∀ c ∈ l, c.isDigit

instance (l : List Char) : Decidable (IsRun l) :=
  decidable_of_iff (l ≠ [] ∧ l.all Char.isDigit)
    ⟨fun ⟨hne, hall⟩ => ⟨hne, List.all_eq_true.mp hall⟩,
      fun ⟨hne, hdigit⟩ => ⟨hne, List.all_eq_true.mpr hdigit⟩⟩

/-- The values of digits. -/
def digitValues (l : List Char) : List Nat := l.map fun c => c.toNat - '0'.toNat

namespace IsRun

variable {l m rest : List Char}

/-- The digits of a run are read up to its end. -/
theorem spanDigits_append (hl : IsRun l) (hr : startsWithDigit rest = false) :
    spanDigits (l ++ rest) = (digitValues l, rest) :=
  SalesQuery.spanDigits_append hl.isDigit hr

theorem digitValues_ne_nil (hl : IsRun l) : digitValues l ≠ [] := by
  rw [digitValues, Ne, List.map_eq_nil_iff]
  exact hl.ne_nil

/-- Digits after a run continue it. -/
theorem append (hl : IsRun l) (hm : ∀ c ∈ m, c.isDigit) : IsRun (l ++ m) :=
  ⟨List.append_ne_nil_of_left_ne_nil hl.ne_nil m, fun c hc =>
    (List.mem_append.mp hc).elim (hl.isDigit c) (hm c)⟩

/-- Digits before a run are part of one. -/
theorem prepend (hl : IsRun l) (hm : ∀ c ∈ m, c.isDigit) : IsRun (m ++ l) :=
  ⟨List.append_ne_nil_of_right_ne_nil m hl.ne_nil, fun c hc =>
    (List.mem_append.mp hc).elim (hm c) (hl.isDigit c)⟩

end IsRun

/-- A text splits into the digits that it starts with and a rest that starts with none. -/
theorem exists_eq_digits_append (l : List Char) :
    ∃ digits after, l = digits ++ after ∧ (∀ c ∈ digits, c.isDigit) ∧
      startsWithDigit after = false := by
  refine ⟨l.takeWhile Char.isDigit, l.dropWhile Char.isDigit,
    List.takeWhile_append_dropWhile.symm, fun _ => List.mem_takeWhile_imp, ?_⟩
  rw [startsWithDigit]
  cases hrest : l.dropWhile Char.isDigit with
  | nil => rfl
  | cons c rest =>
    have hne : l.dropWhile Char.isDigit ≠ [] := by simp [hrest]
    have hhead := List.head_dropWhile_not Char.isDigit hne
    simpa [hrest] using hhead

/-- Zeros are digits. -/
theorem isDigit_of_mem_replicate (k : Nat) : ∀ c ∈ List.replicate k '0', c.isDigit := by
  intro c hc
  rw [List.eq_of_mem_replicate hc]
  rfl

/-- The digits of a number are a run. -/
theorem isRun_toDigits (n : Nat) : IsRun (Nat.toDigits 10 n) :=
  ⟨Nat.toDigits_ne_nil, fun _ hc => Nat.isDigit_of_mem_toDigits (by decide) (by decide) hc⟩

/-- Digits have the value that the standard library reads. -/
theorem ofDigits_digitValues (l : List Char) :
    ofDigits (digitValues l) = Nat.ofDigitChars 10 l 0 :=
  ofDigits_map_toNat l

/-- The digits of a number have its value. -/
theorem ofDigits_digitValues_toDigits (n : Nat) :
    ofDigits (digitValues (Nat.toDigits 10 n)) = n := by
  rw [ofDigits_digitValues, Nat.ofDigitChars_ten_toDigits]

/-- The digits of a positive number do not start with a zero. -/
theorem head?_toDigits {n : Nat} (hn : n ≠ 0) : (Nat.toDigits 10 n).head? ≠ some '0' := by
  induction n using Nat.strongRecOn with
  | _ n ih =>
    rw [Nat.toDigits_eq_if (by decide)]
    split
    · simpa using hn
    · have hten : n / 10 ≠ 0 := by omega
      rw [List.head?_append_of_ne_nil _ Nat.toDigits_ne_nil]
      exact ih (n / 10) (by omega) hten

/-- Zero is the only number whose digits start with a zero, and has no other digit. -/
theorem toDigits_eq_of_head? (n : Nat) (h : (Nat.toDigits 10 n).head? = some '0') :
    Nat.toDigits 10 n = ['0'] := by
  by_cases hn : n = 0
  · rw [hn, Nat.toDigits_zero]
  · exact absurd h (head?_toDigits hn)

end SalesQuery.Text
