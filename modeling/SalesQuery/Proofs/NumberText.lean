import SalesQuery.Json.Numeral
import SalesQuery.Json.Text
import SalesQuery.Proofs.DigitRuns
import SalesQuery.Proofs.ShortestDecimal

/-!
# The text of a number

The numeral scanner reads the text of a number back, whatever follows as long as it does not go on
with the numeral (`Number.scan_text`). What it finds stands for that number alone
(`Numeral.StandsFor.unique`): the text of an integer has neither a fraction nor an exponent and has
its value, and the text of a double has one of the two and a value that rounds to the double.
-/

namespace SalesQuery

/-- The digits of a decimal. -/
def Binary64.Decimal.digitChars (d : Decimal) : List Char := Nat.toDigits 10 d.digits

/-- The exponent of the first digit of a decimal. -/
def Binary64.Decimal.leading (d : Decimal) : Int := d.exponent + d.digitChars.length - 1

end SalesQuery

namespace SalesQuery.Json

open Binary64 (Decimal interval layout)
open Text

namespace Numeral

/-! ## Scanning -/

/-- Text after a numeral that does not go on with it. -/
def Ended (l : List Char) : Prop :=
  ∀ c ∈ l.head?, c.isDigit = false ∧ c ≠ '.' ∧ c ≠ 'e' ∧ c ≠ 'E'

theorem Ended.startsWithDigit {l : List Char} (h : Ended l) : startsWithDigit l = false := by
  cases l with
  | nil => rfl
  | cons c l => exact (h c rfl).1

/-- A fraction is read after its point. -/
theorem scanFraction_point {l rest : List Char} (hl : IsRun l) (hr : startsWithDigit rest = false) :
    scanFraction ('.' :: (l ++ rest)) = some (digitValues l, rest) := by
  have hne := hl.digitValues_ne_nil
  rw [scanFraction, hl.spanDigits_append hr]
  split
  · rename_i heq
    exact absurd (Prod.mk.inj heq).1 hne
  · rename_i heq
    obtain ⟨rfl, rfl⟩ := Prod.mk.inj heq
    rfl

/-- Without a point there is no fraction. -/
theorem scanFraction_of_ne {l : List Char} (h : l.head? ≠ some '.') :
    scanFraction l = some ([], l) := by
  unfold scanFraction
  split
  · exact absurd rfl h
  · rfl

/-- The exponent after a mark with a sign. -/
theorem scanExponent_mark {l rest : List Char} (negative : Bool) (hl : IsRun l)
    (hr : startsWithDigit rest = false) :
    scanExponent ('e' :: (if negative then '-' else '+') :: (l ++ rest)) =
      some (some (if negative then -(ofDigits (digitValues l) : Int) else ofDigits (digitValues l)),
        rest) := by
  have hne := hl.digitValues_ne_nil
  have hdigits : scanExponentDigits negative (l ++ rest) =
      some (some (if negative then -(ofDigits (digitValues l) : Int)
        else ofDigits (digitValues l)), rest) := by
    rw [scanExponentDigits, hl.spanDigits_append hr]
    split
    · rename_i heq
      exact absurd (Prod.mk.inj heq).1 hne
    · rename_i heq
      obtain ⟨rfl, rfl⟩ := Prod.mk.inj heq
      rfl
  cases negative <;> simpa [scanExponent] using hdigits

/-- Without a mark there is no exponent. -/
theorem scanExponent_ended {l : List Char} (h : Ended l) : scanExponent l = some (none, l) := by
  cases l with
  | nil => rfl
  | cons c l =>
    obtain ⟨-, -, hlower, hupper⟩ := h c rfl
    simp [scanExponent, hlower, hupper]

/-- A numeral is its digits before the point, its fraction and its exponent. -/
theorem scanUnsigned_append {whole tail rest rest' : List Char} {fraction : List Nat}
    {exponent : Option Int} (hwhole : IsRun whole) (hzero : whole.head? = some '0' → whole = ['0'])
    (htail : startsWithDigit tail = false) (hfraction : scanFraction tail = some (fraction, rest))
    (hexponent : scanExponent rest = some (exponent, rest')) (negative : Bool) :
    scanUnsigned negative (whole ++ tail) =
      some (⟨negative, digitValues whole, fraction, exponent⟩, rest') := by
  have hlead : ¬((digitValues whole).isEmpty ∨
      (digitValues whole).head? = some 0 ∧ 1 < (digitValues whole).length) := by
    rw [List.isEmpty_iff]
    rintro (hnil | ⟨hhead, hlength⟩)
    · exact hwhole.digitValues_ne_nil hnil
    · obtain ⟨c, l, rfl⟩ := List.exists_cons_of_ne_nil hwhole.ne_nil
      have hvalue : c.toNat - '0'.toNat = 0 := by simpa [digitValues] using hhead
      have hdigit := Char.isDigit_iff_toNat.mp (hwhole.isDigit c (List.mem_cons_self ..))
      obtain rfl : c = '0' := Char.toNat_inj.mp (by omega)
      simp [hzero rfl, digitValues] at hlength
  simp only [scanUnsigned, hwhole.spanDigits_append htail, if_neg hlead, hfraction, hexponent,
    Option.bind_eq_bind, Option.bind_some, pure]

/-! ## Texts of numerals -/

/-- The text is that of the numeral without its sign: it is read back whatever sign came before it,
and whatever follows that does not go on with it. -/
def WrittenAs (a : Numeral) (l : List Char) : Prop :=
  ∀ negative rest, Ended rest → scanUnsigned negative (l ++ rest) = some ({ a with negative }, rest)

/-- The absolute value of a numeral. -/
def magnitude (a : Numeral) : ℚ :=
  ofDigits (a.whole ++ a.fraction) * (10 : ℚ) ^ (a.exponent.getD 0 - a.fraction.length)

/-- A numeral of digits only. -/
theorem writtenAs_whole {whole : List Char} (hwhole : IsRun whole)
    (hzero : whole.head? = some '0' → whole = ['0']) :
    WrittenAs ⟨false, digitValues whole, [], none⟩ whole := by
  intro negative rest hr
  have hpoint : rest.head? ≠ some '.' := fun h => (hr '.' h).2.1 rfl
  exact scanUnsigned_append hwhole hzero hr.startsWithDigit (scanFraction_of_ne hpoint)
    (scanExponent_ended hr) negative

/-- A numeral with a fraction. -/
theorem writtenAs_point {whole fraction : List Char} (hwhole : IsRun whole)
    (hzero : whole.head? = some '0' → whole = ['0']) (hfraction : IsRun fraction) :
    WrittenAs ⟨false, digitValues whole, digitValues fraction, none⟩
      (whole ++ '.' :: fraction) := by
  intro negative rest hr
  rw [List.append_assoc, List.cons_append]
  exact scanUnsigned_append hwhole hzero rfl (scanFraction_point hfraction hr.startsWithDigit)
    (scanExponent_ended hr) negative

/-- A numeral without its sign starts with a digit. -/
theorem exists_digit_of_scanUnsigned {negative : Bool} {l : List Char} {step : Numeral × List Char}
    (h : scanUnsigned negative l = some step) : ∃ c rest, l = c :: rest ∧ c.isDigit := by
  cases l with
  | nil => cases h
  | cons c l =>
    refine ⟨c, l, rfl, ?_⟩
    by_contra hc
    simp [scanUnsigned, spanDigits, Text.digit?, hc] at h

/-- A numeral starts with a minus sign or a digit. -/
theorem exists_head_of_scan {l : List Char} {step : Numeral × List Char}
    (h : Numeral.scan l = some step) : ∃ c rest, l = c :: rest ∧ (c = '-' ∨ c.isDigit) := by
  unfold Numeral.scan at h
  split at h
  · exact ⟨_, _, rfl, .inl rfl⟩
  · obtain ⟨c, rest, hl, hc⟩ := exists_digit_of_scanUnsigned h
    exact ⟨c, rest, hl, .inr hc⟩

/-- With its sign, a written numeral is read back. -/
theorem WrittenAs.scan {a : Numeral} {l rest : List Char} (h : a.WrittenAs l) (negative : Bool)
    (hr : Ended rest) :
    Numeral.scan ((if negative then ['-'] else []) ++ (l ++ rest)) =
      some ({ a with negative }, rest) := by
  obtain ⟨c, rest', hl, hc⟩ := exists_digit_of_scanUnsigned (h false rest hr)
  have hminus : c ≠ '-' := by
    rintro rfl
    exact absurd hc (by decide)
  cases negative with
  | true => exact h true rest hr
  | false =>
    rw [← h false rest hr]
    simp [Numeral.scan, hl, hminus]

/-- A numeral with an exponent, and with a fraction unless there are no digits for one. -/
theorem writtenAs_exponent {whole fraction : List Char} (exponent : Int)
    (hwhole : IsRun whole) (hzero : whole.head? = some '0' → whole = ['0'])
    (hfraction : ∀ c ∈ fraction, c.isDigit) :
    WrittenAs ⟨false, digitValues whole, digitValues fraction, some exponent⟩
      (whole ++ ((if fraction.isEmpty then [] else '.' :: fraction) ++
        'e' :: (if exponent < 0 then '-' else '+') :: Nat.toDigits 10 exponent.natAbs)) := by
  intro sign rest hr
  have hmark := scanExponent_mark (decide (exponent < 0)) (isRun_toDigits exponent.natAbs)
    hr.startsWithDigit
  have hvalue :
      (if exponent < 0 then -(exponent.natAbs : Int) else exponent.natAbs) = exponent := by
    split <;> omega
  simp only [decide_eq_true_eq, ofDigits_digitValues_toDigits, hvalue] at hmark
  rw [List.append_assoc, List.append_assoc, List.cons_append, List.cons_append]
  by_cases hnil : fraction = []
  · subst hnil
    exact scanUnsigned_append hwhole hzero rfl (scanFraction_of_ne (by simp)) hmark sign
  · rw [if_neg (by simpa using hnil), List.cons_append]
    exact scanUnsigned_append hwhole hzero rfl (scanFraction_point ⟨hnil, hfraction⟩ rfl) hmark sign

end Numeral

open Numeral

/-! ## Decimals -/

/-- The absolute value of a numeral in terms of the digits that are written. -/
theorem magnitude_digitValues (whole fraction : List Char) (exponent : Option Int) :
    magnitude ⟨false, digitValues whole, digitValues fraction, exponent⟩ =
      Nat.ofDigitChars 10 (whole ++ fraction) 0 *
        (10 : ℚ) ^ (exponent.getD 0 - fraction.length) := by
  rw [magnitude, digitValues, digitValues, ← List.map_append, List.length_map]
  exact congrArg (fun n : Nat => (n : ℚ) * _) (ofDigits_digitValues _)

/-- The text of a decimal by its characters: with an exponent, or with the point after all digits,
between two of them or before them. -/
theorem toList_write (d : Decimal) :
    (d.write layout).toList =
      if d.leading < -5 ∨ 15 < d.leading then
        d.digitChars.take 1 ++
          ((if (d.digitChars.drop 1).isEmpty then [] else '.' :: d.digitChars.drop 1) ++
            'e' :: (if d.leading < 0 then '-' else '+') :: Nat.toDigits 10 d.leading.natAbs)
      else if 0 ≤ d.exponent then
        (d.digitChars ++ List.replicate d.exponent.toNat '0') ++ '.' :: ['0']
      else if 0 ≤ d.leading then
        d.digitChars.take (d.leading.toNat + 1) ++ '.' :: d.digitChars.drop (d.leading.toNat + 1)
      else ['0'] ++ '.' :: (List.replicate (-d.leading - 1).toNat '0' ++ d.digitChars) := by
  have htext (n : Nat) : (toString n).toList = Nat.toDigits 10 n := Nat.toList_repr
  have hmark : (if d.leading < 0 then layout.negativeMark else layout.positiveMark).toList =
      ['e', if d.leading < 0 then '-' else '+'] := by
    split <;> rfl
  have hpoint (l : List Char) : (if l.isEmpty then "" else "." ++ String.ofList l).toList =
      if l.isEmpty then [] else '.' :: l := by
    split
    · rfl
    · simp [String.toList_append]
  have hleading : d.leading = d.exponent + d.digitChars.length - 1 := rfl
  have hleast : layout.leastPositional = -5 := rfl
  have hgreatest : layout.greatestPositional = 15 := rfl
  unfold Decimal.write
  simp only [htext]
  rw [show Nat.toDigits 10 d.digits = d.digitChars from rfl]
  simp only [← hleading, hleast, hgreatest]
  split
  · simp only [String.toList_append, hmark, hpoint, htext, String.toList_ofList, List.append_assoc]
    rfl
  · split
    · simp [Binary64.zeros, String.toList_append]
    · split
      · simp [String.toList_append]
      · simp [Binary64.zeros, String.toList_append]

/-- The text of a decimal is a numeral of the same value, with a fraction or an exponent. -/
theorem writtenAs_write {d : Decimal} (hd : d.digits ≠ 0) :
    ∃ a : Numeral, a.WrittenAs (d.write layout).toList ∧ a.magnitude = d.value ∧
      (a.fraction ≠ [] ∨ a.exponent ≠ none) := by
  obtain ⟨hne, hdigit⟩ : IsRun d.digitChars := isRun_toDigits d.digits
  have hvalue : Nat.ofDigitChars 10 d.digitChars 0 = d.digits := Nat.ofDigitChars_ten_toDigits
  have hhead : d.digitChars.head? ≠ some '0' := head?_toDigits hd
  -- The digits before the point, whatever their number, are a run that no zero leads.
  have htake (n : Nat) : IsRun (d.digitChars.take (n + 1)) ∧
      ((d.digitChars.take (n + 1)).head? = some '0' → d.digitChars.take (n + 1) = ['0']) := by
    refine ⟨⟨?_, fun c hc => hdigit c (List.mem_of_mem_take hc)⟩, fun h => absurd ?_ hhead⟩
    · rw [Ne, List.take_eq_nil_iff]
      exact not_or.mpr ⟨n.succ_ne_zero, hne⟩
    · rwa [List.head?_take, if_neg n.succ_ne_zero] at h
  have hdrop (n : Nat) : ∀ c ∈ d.digitChars.drop n, c.isDigit :=
    fun c hc => hdigit c (List.mem_of_mem_drop hc)
  have hleading : d.leading = d.exponent + d.digitChars.length - 1 := rfl
  have hsize : 0 < d.digitChars.length := List.length_pos_of_ne_nil hne
  rw [toList_write]
  split
  · -- With an exponent, one digit stands before the point.
    obtain ⟨hrun, hzero⟩ := htake 0
    refine ⟨_, writtenAs_exponent d.leading hrun hzero (hdrop 1), ?_, .inr (Option.some_ne_none _)⟩
    rw [magnitude_digitValues, List.take_append_drop, hvalue, List.length_drop, Decimal.value,
      Option.getD_some]
    congr 2
    omega
  · split
    · rename_i hexp
      obtain ⟨k, hk⟩ := Int.eq_ofNat_of_zero_le hexp
      have hrun := IsRun.append ⟨hne, hdigit⟩ (isDigit_of_mem_replicate d.exponent.toNat)
      have hzero : (d.digitChars ++ List.replicate d.exponent.toNat '0').head? ≠ some '0' := by
        rwa [List.head?_append_of_ne_nil _ hne]
      have hplace : IsRun ['0'] := ⟨by simp, isDigit_of_mem_replicate 1⟩
      refine ⟨_, writtenAs_point hrun (absurd · hzero) hplace, ?_, .inl hplace.digitValues_ne_nil⟩
      have hall :
          Nat.ofDigitChars 10 (d.digitChars ++ List.replicate d.exponent.toNat '0' ++ ['0']) 0 =
            d.digits * 10 ^ k * 10 := by
        rw [Nat.ofDigitChars_append, Nat.ofDigitChars_append, hvalue,
          Nat.ofDigitChars_replicate_zero, Nat.ofDigitChars_cons, Nat.ofDigitChars_nil, hk,
          Int.toNat_natCast, Nat.sub_self]
        ring
      rw [magnitude_digitValues, hall, Decimal.value, hk]
      simp
    · split
      · obtain ⟨hrun, hzero⟩ := htake d.leading.toNat
        have hfraction : IsRun (d.digitChars.drop (d.leading.toNat + 1)) :=
          ⟨by rw [Ne, List.drop_eq_nil_iff]; omega, hdrop _⟩
        refine ⟨_, writtenAs_point hrun hzero hfraction, ?_, .inl hfraction.digitValues_ne_nil⟩
        rw [magnitude_digitValues, List.take_append_drop, hvalue, List.length_drop, Decimal.value,
          Option.getD_none]
        congr 2
        omega
      · have hfraction : IsRun (List.replicate (-d.leading - 1).toNat '0' ++ d.digitChars) :=
          IsRun.prepend ⟨hne, hdigit⟩ (isDigit_of_mem_replicate _)
        have hwhole : IsRun ['0'] := ⟨by simp, isDigit_of_mem_replicate 1⟩
        refine ⟨_, writtenAs_point hwhole (fun _ => rfl) hfraction, ?_,
          .inl hfraction.digitValues_ne_nil⟩
        have hall : Nat.ofDigitChars 10
            (['0'] ++ (List.replicate (-d.leading - 1).toNat '0' ++ d.digitChars)) 0 =
              d.digits := by
          rw [Nat.ofDigitChars_append, Nat.ofDigitChars_append, Nat.ofDigitChars_cons,
            Nat.ofDigitChars_nil, Nat.sub_self, Nat.ofDigitChars_replicate_zero]
          simpa using hvalue
        rw [magnitude_digitValues, hall, List.length_append, List.length_replicate, Decimal.value,
          Option.getD_none]
        congr 2
        omega

/-! ## Numbers -/

/-- The number has a JSON text: it is neither an infinity nor a NaN. -/
def Number.IsFinite : Number → Prop
  | .int _ => True
  | .float x => x.isFinite = true

/-- The numeral stands for the number: an integer by its value, a double by a value that rounds to
it. Only a double has a fraction or an exponent. -/
def Numeral.StandsFor (a : Numeral) : Number → Prop
  | .int n => (a.fraction = [] ∧ a.exponent = none) ∧
      n = if a.negative then -(ofDigits a.whole : Int) else ofDigits a.whole
  | .float x => (a.fraction ≠ [] ∨ a.exponent ≠ none) ∧
      ∃ m e, x.meaning = .finite a.negative m e ∧ (interval m e).Contains a.magnitude

/-- A numeral stands for one number at most. -/
theorem Numeral.StandsFor.unique {a : Numeral} {n k : Number} (hn : a.StandsFor n)
    (hk : a.StandsFor k) : n = k := by
  cases n with
  | int n =>
    obtain ⟨hwhole, hn⟩ := hn
    cases k with
    | int k => rw [hn, ← hk.2]
    | float y => exact (hk.1.elim (· hwhole.1) (· hwhole.2)).elim
  | float x =>
    obtain ⟨hmark, m, e, hx, hm⟩ := hn
    cases k with
    | int k => exact (hmark.elim (· hk.1.1) (· hk.1.2)).elim
    | float y =>
      obtain ⟨-, m', e', hy, hm'⟩ := hk
      obtain ⟨rfl, rfl⟩ := Binary64.eq_of_contains (Binary64.normalized_of_meaning hx)
        (Binary64.normalized_of_meaning hy) hm hm'
      rw [Binary64.eq_of_meaning hx hy]

/-- The text of an integer is a sign and digits. -/
theorem toList_toString_int (n : Int) :
    (toString n).toList =
      (if decide (n < 0) then ['-'] else []) ++ Nat.toDigits 10 n.natAbs := by
  rw [Int.toString_eq_repr, Int.repr_eq_if]
  by_cases hn : n < 0
  · rw [if_neg (by omega), if_pos (by simpa using hn), String.toList_append, Nat.toList_repr,
      show (-n).toNat = n.natAbs by omega]
    rfl
  · rw [if_pos (by omega), if_neg (by simpa using hn), Nat.toList_repr,
      show n.toNat = n.natAbs by omega]
    rfl

/-- The text of a finite number is read back as a numeral that stands for the number. -/
theorem Number.scan_text {n : Number} (hn : n.IsFinite) :
    ∃ a : Numeral, a.StandsFor n ∧
      ∀ rest, Ended rest → Numeral.scan (n.text.toList ++ rest) = some (a, rest) := by
  cases n with
  | int n =>
    have hwritten := writtenAs_whole (isRun_toDigits n.natAbs) (toDigits_eq_of_head? n.natAbs)
    refine ⟨⟨decide (n < 0), digitValues (Nat.toDigits 10 n.natAbs), [], none⟩, ?_, ?_⟩
    · refine ⟨⟨rfl, rfl⟩, ?_⟩
      simp only [ofDigits_digitValues_toDigits, decide_eq_true_eq]
      split <;> omega
    · intro rest hr
      rw [Number.text, toList_toString_int, List.append_assoc]
      exact hwritten.scan _ hr
  | float x =>
    obtain ⟨s, m, e, hx⟩ := Binary64.exists_meaning_of_isFinite hn
    have hcontains := Binary64.contains_shortest (Binary64.normalized_of_meaning hx)
    -- Zero and the other numbers alike are written as the numeral of some value in the interval.
    obtain ⟨a, l, hwritten, hmark, hvalue, htext⟩ : ∃ (a : Numeral) (l : List Char),
        a.WrittenAs l ∧ (a.fraction ≠ [] ∨ a.exponent ≠ none) ∧
        (interval m e).Contains a.magnitude ∧
        (Number.float x).text.toList = (if s then ['-'] else []) ++ l := by
      have hsign : (if s then "-" else "").toList = if s then ['-'] else [] := by
        cases s <;> rfl
      by_cases hm : m = 0
      · subst hm
        have hrun : IsRun ['0'] := ⟨by simp, by simp⟩
        refine ⟨_, ['0', '.', '0'], writtenAs_point hrun (fun _ => rfl) hrun,
          .inl hrun.digitValues_ne_nil, ?_, ?_⟩
        · have hzero : magnitude ⟨false, digitValues ['0'], digitValues ['0'], none⟩ = 0 := by
            rw [magnitude_digitValues]
            simp [Nat.ofDigitChars_cons]
          rw [hzero]
          exact Binary64.contains_zero e
        · simp [Number.text, Binary64.text?, hx, String.toList_append, hsign]
      · obtain ⟨a, hwritten, hvalue, hmark⟩ := writtenAs_write
          (Binary64.digits_shortest_ne_zero (Binary64.normalized_of_meaning hx) hm)
        refine ⟨a, _, hwritten, hmark, hvalue ▸ hcontains, ?_⟩
        simp [Number.text, Binary64.text?, hx, hm, String.toList_append, hsign]
    refine ⟨{ a with negative := s }, ⟨hmark, m, e, hx, hvalue⟩, fun rest hr => ?_⟩
    rw [htext, List.append_assoc]
    exact hwritten.scan s hr

/-- The texts of finite numbers are told apart, and their ends found, in any text that goes on with
neither. -/
theorem Number.text_append_inj {n k : Number} (hn : n.IsFinite) (hk : k.IsFinite)
    {r t : List Char} (hr : Ended r) (ht : Ended t)
    (h : n.text.toList ++ r = k.text.toList ++ t) : n = k ∧ r = t := by
  obtain ⟨a, hstands, hscan⟩ := n.scan_text hn
  obtain ⟨b, hstands', hscan'⟩ := k.scan_text hk
  have heq := hscan r hr
  rw [h, hscan' t ht] at heq
  obtain ⟨rfl, rfl⟩ := Prod.mk.inj (Option.some.inj heq)
  exact ⟨hstands.unique hstands', rfl⟩

end SalesQuery.Json
