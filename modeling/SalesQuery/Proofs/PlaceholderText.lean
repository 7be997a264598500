import SalesQuery.Sql.Placeholder

/-!
# Reading placeholders off a text

`placeholderNumbers` reads the placeholders `$n` of a text from left to right, with numbers of any
size. The scan for the greatest placeholder goes through them and keeps the greatest
(`scanPlaceholders_eq_foldlM`): it gives the greatest of all (`maxPlaceholder_of_fit`), unless one of
them does not fit 64 bits (`maxPlaceholder_of_size_le`). A number written by `toString` after a dollar
sign is read back (`placeholderNumbers_dollar`), as long as no further digit follows it.
-/

namespace SalesQuery

open Text (digit? spanDigits ofDigits)

/-! ## The numbers after dollar signs -/

/-- The number that the longest run of decimal digits at the start of a text writes. -/
def leadingNumber? (l : List Char) : Option Nat :=
  match (spanDigits l).1 with
  | [] => none
  | digits => some (ofDigits digits)

/-- The numbers of the placeholders in a text, from left to right: each is what the digits right
after a dollar sign write. -/
def placeholderNumbers : List Char → List Nat
  | [] => []
  | c :: rest => (if c = '$' then (leadingNumber? rest).toList else []) ++ placeholderNumbers rest

/-- Whether the first character of a text is a decimal digit. -/
def startsWithDigit (l : List Char) : Bool := l.head?.any Char.isDigit

/-- A part without dollar signs holds no placeholder. -/
theorem placeholderNumbers_append {l : List Char} (h : '$' ∉ l) (rest : List Char) :
    placeholderNumbers (l ++ rest) = placeholderNumbers rest := by
  induction l with
  | nil => rfl
  | cons c l ih =>
    rw [List.mem_cons, not_or] at h
    rw [List.cons_append, placeholderNumbers, if_neg (Ne.symm h.1), List.nil_append, ih h.2]

/-- The digits at the start of a text are the ones written there, if no further digit follows. -/
theorem spanDigits_append {digits : List Char} (hd : ∀ c ∈ digits, c.isDigit) {rest : List Char}
    (hr : startsWithDigit rest = false) :
    spanDigits (digits ++ rest) = (digits.map fun c => c.toNat - '0'.toNat, rest) := by
  induction digits with
  | nil =>
    cases rest with
    | nil => rfl
    | cons c rest =>
      have hc : c.isDigit = false := hr
      simp [spanDigits, digit?, hc]
  | cons c digits ih =>
    obtain ⟨hc, hds⟩ := List.forall_mem_cons.mp hd
    rw [List.cons_append, spanDigits, digit?, if_pos hc]
    simp only [ih hds, List.map_cons]

/-- Digits are read as the standard library reads them. -/
theorem ofDigits_map_toNat (digits : List Char) :
    ofDigits (digits.map fun c => c.toNat - '0'.toNat) = Nat.ofDigitChars 10 digits 0 := by
  rw [Nat.ofDigitChars_eq_foldl, ofDigits, List.foldl_map]

/-- Digits at the start of a text are read as their value, if no further digit follows. -/
theorem leadingNumber?_append {digits : List Char} (hne : digits ≠ [])
    (hd : ∀ c ∈ digits, c.isDigit) {rest : List Char} (hr : startsWithDigit rest = false) :
    leadingNumber? (digits ++ rest) = some (Nat.ofDigitChars 10 digits 0) := by
  obtain ⟨c, cs, rfl⟩ := List.exists_cons_of_ne_nil hne
  rw [leadingNumber?, spanDigits_append hd hr]
  exact congrArg some (ofDigits_map_toNat (c :: cs))

/-- The decimal digits of a number are read back as the number. -/
theorem leadingNumber?_toDigits (n : Nat) {rest : List Char} (hr : startsWithDigit rest = false) :
    leadingNumber? (Nat.toDigits 10 n ++ rest) = some n := by
  have hd : ∀ c ∈ Nat.toDigits 10 n, c.isDigit :=
    fun c hc => Nat.isDigit_of_mem_toDigits (by decide) (by decide) hc
  rw [leadingNumber?_append Nat.toDigits_ne_nil hd hr, Nat.ofDigitChars_ten_toDigits]

/-- A number written after a dollar sign is the first placeholder read. -/
theorem placeholderNumbers_dollar (n : Nat) {rest : List Char}
    (hr : startsWithDigit rest = false) :
    placeholderNumbers ('$' :: (Nat.toDigits 10 n ++ rest)) = n :: placeholderNumbers rest := by
  have hd : '$' ∉ Nat.toDigits 10 n := fun hc =>
    absurd (Nat.isDigit_of_mem_toDigits (by decide) (by decide) hc) (by decide)
  rw [placeholderNumbers, if_pos rfl, leadingNumber?_toDigits n hr, placeholderNumbers_append hd]
  rfl

/-! ## The greatest number -/

/-- The greater of a number of 64 bits and a natural number, if that one fits as well. -/
def keepGreatest (greatest : UInt64) (n : Nat) : Checked UInt64 := max greatest <$> fit64 n

theorem keepGreatest_of_toNat_eq {m : UInt64} {n : Nat} (h : m.toNat = n) (greatest : UInt64) :
    keepGreatest greatest n = .ok (max greatest m) := by
  rw [keepGreatest, fit64_eq_ok.mpr h]
  rfl

theorem keepGreatest_of_size_le {n : Nat} (h : UInt64.size ≤ n) (greatest : UInt64) :
    keepGreatest greatest n = .error ⟨⟩ := by
  rw [keepGreatest, fit64_eq_error.mpr h]
  rfl

/-- More digits do not make a number smaller. -/
theorem ofDigits_le_append (digits more : List Nat) :
    ofDigits digits ≤ ofDigits (digits ++ more) := by
  rw [ofDigits, ofDigits, List.foldl_append]
  generalize digits.foldl (fun n d => 10 * n + d) 0 = n
  induction more generalizing n with
  | nil => exact Nat.le_refl n
  | cons d more ih =>
    have hfirst : n ≤ 10 * n + d := by omega
    exact Nat.le_trans hfirst (ih (10 * n + d))

/-- Appending a digit to the number of some digits gives the number of all of them, if it fits. -/
theorem appendDigit_eq {n : UInt64} {digits : List Nat} (h : n.toNat = ofDigits digits) (d : Nat) :
    appendDigit n d = fit64 (ofDigits (digits ++ [d])) := by
  have happ : ofDigits (digits ++ [d]) = 10 * ofDigits digits + d := by
    simp [ofDigits, List.foldl_append]
  rw [appendDigit, h, happ, Nat.mul_comm]

/-- The scan in its three states: outside a placeholder, right after a dollar sign, and within a
number whose digits so far are known. -/
theorem scanPlaceholders_eq_foldlM (l : List Char) :
    (∀ greatest, scanPlaceholders greatest none l =
      (placeholderNumbers l).foldlM keepGreatest greatest) ∧
    (∀ greatest, scanPlaceholders greatest (some none) l =
      ((leadingNumber? l).toList ++ placeholderNumbers l).foldlM keepGreatest greatest) ∧
    (∀ greatest n digits, n.toNat = ofDigits digits →
      scanPlaceholders greatest (some (some n)) l =
        (ofDigits (digits ++ (spanDigits l).1) :: placeholderNumbers l).foldlM keepGreatest
          greatest) := by
  induction l with
  | nil =>
    refine ⟨fun _ => rfl, fun _ => rfl, fun greatest n digits hn => ?_⟩
    rw [spanDigits, List.append_nil, List.foldlM_cons, keepGreatest_of_toNat_eq hn]
    rfl
  | cons c rest ih =>
    obtain ⟨outside, afterDollar, inNumber⟩ := ih
    cases hd : digit? c with
    | some d =>
      -- A digit is no dollar sign, so it only extends a number under way.
      have hne : c ≠ '$' := by
        rintro rfl
        rw [show digit? '$' = none from rfl] at hd
        contradiction
      have hspan : (spanDigits (c :: rest)).1 = d :: (spanDigits rest).1 := by
        simp [spanDigits, hd]
      have hnumbers : placeholderNumbers (c :: rest) = placeholderNumbers rest := by
        simp [placeholderNumbers, hne]
      have hextend : ∀ greatest n digits, n.toNat = ofDigits digits →
          (appendDigit n d >>= fun n => scanPlaceholders greatest (some (some n)) rest) =
            (ofDigits (digits ++ (spanDigits (c :: rest)).1) ::
              placeholderNumbers (c :: rest)).foldlM keepGreatest greatest := by
        intro greatest n digits hn
        have hsplit : digits ++ d :: (spanDigits rest).1 = (digits ++ [d]) ++ (spanDigits rest).1 := by
          rw [List.append_assoc, List.singleton_append]
        rw [appendDigit_eq hn, hspan, hnumbers, hsplit]
        cases hfit : fit64 (ofDigits (digits ++ [d])) with
        | ok n' => exact inNumber greatest n' (digits ++ [d]) (fit64_eq_ok.mp hfit)
        | error overflow =>
          -- The digits that follow do not bring the number back into range.
          have hsize := Nat.le_trans (fit64_eq_error.mp hfit)
            (ofDigits_le_append (digits ++ [d]) (spanDigits rest).1)
          rw [List.foldlM_cons, keepGreatest_of_size_le hsize]
          rfl
      refine ⟨fun greatest => ?_, fun greatest => ?_, fun greatest n digits hn => ?_⟩
      · simp only [scanPlaceholders, hd, hnumbers, outside]
      · have hlead : leadingNumber? (c :: rest) = some (ofDigits (d :: (spanDigits rest).1)) := by
          rw [leadingNumber?, hspan]
        simp only [scanPlaceholders, hd, Option.getD_none, hlead, Option.toList_some,
          List.singleton_append]
        rw [hextend greatest 0 [] rfl, hspan]
        rfl
      · simp only [scanPlaceholders, hd, Option.getD_some]
        exact hextend greatest n digits hn
    | none =>
      -- Anything else ends a number under way, and a dollar sign opens the next.
      have hspan : (spanDigits (c :: rest)).1 = [] := by simp [spanDigits, hd]
      have hlead : leadingNumber? (c :: rest) = none := by simp [leadingNumber?, hspan]
      have hnext : ∀ greatest,
          scanPlaceholders greatest (if c = '$' then some none else none) rest =
            (placeholderNumbers (c :: rest)).foldlM keepGreatest greatest := by
        intro greatest
        rw [placeholderNumbers]
        split
        · exact afterDollar greatest
        · exact outside greatest
      refine ⟨fun greatest => ?_, fun greatest => ?_, fun greatest n digits hn => ?_⟩
      · simp only [scanPlaceholders, hd, hnext]
      · simp only [scanPlaceholders, hd, hnext, hlead, Option.toList_none, List.nil_append]
      · rw [hspan, List.append_nil, List.foldlM_cons, keepGreatest_of_toNat_eq hn]
        simp only [scanPlaceholders, hd, hnext]
        rfl

/-- The greater of two numbers of 64 bits as natural numbers. -/
theorem toNat_max (m n : UInt64) : (max m n).toNat = max m.toNat n.toNat := by
  show (if m ≤ n then n else m).toNat = _
  split
  · rename_i h
    rw [UInt64.le_iff_toNat_le] at h
    exact (Nat.max_eq_right h).symm
  · rename_i h
    rw [UInt64.le_iff_toNat_le] at h
    omega

/-- Keeping the greatest of numbers that fit gives their greatest. -/
theorem foldlM_keepGreatest {numbers : List Nat} (h : ∀ n ∈ numbers, n < UInt64.size)
    (greatest : UInt64) : ∃ m, numbers.foldlM keepGreatest greatest = .ok m ∧
      m.toNat = numbers.foldl max greatest.toNat := by
  induction numbers generalizing greatest with
  | nil => exact ⟨greatest, rfl, rfl⟩
  | cons n numbers ih =>
    obtain ⟨hn, hrest⟩ := List.forall_mem_cons.mp h
    have hnat : (UInt64.ofNat n).toNat = n := UInt64.toNat_ofNat_of_lt hn
    obtain ⟨m, hm, hmax⟩ := ih hrest (max greatest (UInt64.ofNat n))
    rw [toNat_max, hnat] at hmax
    refine ⟨m, ?_, hmax⟩
    rw [List.foldlM_cons, keepGreatest_of_toNat_eq hnat]
    exact hm

/-- Keeping the greatest breaks off at a number that does not fit. -/
theorem foldlM_keepGreatest_of_size_le {numbers : List Nat} {n : Nat} (hmem : n ∈ numbers)
    (hn : UInt64.size ≤ n) (greatest : UInt64) :
    numbers.foldlM keepGreatest greatest = .error ⟨⟩ := by
  induction numbers generalizing greatest with
  | nil => contradiction
  | cons k numbers ih =>
    rw [List.foldlM_cons]
    by_cases hk : UInt64.size ≤ k
    · rw [keepGreatest_of_size_le hk]
      rfl
    · have hne : n ≠ k := fun heq => hk (heq ▸ hn)
      have hnat : (UInt64.ofNat k).toNat = k := UInt64.toNat_ofNat_of_lt (Nat.not_le.mp hk)
      rw [keepGreatest_of_toNat_eq hnat]
      exact ih (List.mem_of_ne_of_mem hne hmem) _

/-- The scan gives the greatest placeholder if all of them fit 64 bits. -/
theorem maxPlaceholder_of_fit {sql : String}
    (h : ∀ n ∈ placeholderNumbers sql.toList, n < UInt64.size) :
    maxPlaceholder sql = .ok ((placeholderNumbers sql.toList).foldl max 0) := by
  obtain ⟨m, hm, hmax⟩ := foldlM_keepGreatest h 0
  rw [maxPlaceholder, (scanPlaceholders_eq_foldlM sql.toList).1 0, hm]
  exact congrArg Except.ok hmax

/-- The scan breaks off if one of the placeholders does not fit. -/
theorem maxPlaceholder_of_size_le {sql : String} {n : Nat}
    (hmem : n ∈ placeholderNumbers sql.toList) (hn : UInt64.size ≤ n) :
    maxPlaceholder sql = .error ⟨⟩ := by
  rw [maxPlaceholder, (scanPlaceholders_eq_foldlM sql.toList).1 0,
    foldlM_keepGreatest_of_size_le hmem hn]
  rfl

/-- The greatest of the numbers from 1 to `k` is `k`. -/
theorem foldl_max_range' (k : Nat) : (List.range' 1 k).foldl max 0 = k := by
  induction k with
  | zero => rfl
  | succ k ih =>
    rw [List.range'_1_concat, List.foldl_append, List.foldl_cons, List.foldl_nil, ih]
    omega

end SalesQuery
