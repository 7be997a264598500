import Mathlib.Data.Set.Function
import SalesQuery.Cache.Fingerprint

/-!
# What a fingerprint tells

A fingerprint ends in sixty-four hexadecimal digits, so its scope can be read off it, and the digits
determine the digest. If the digest does not collide on two canonical texts, equal fingerprints
come from one scope and one canonical text (`fingerprint_eq_iff`).
-/

namespace SalesQuery

namespace Sha256

/-! ## Hexadecimal digits -/

/-- Different numbers below sixteen have different digits. -/
theorem hexDigit_inj {a b : Nat} (ha : a < 16) (hb : b < 16)
    (h : Text.hexDigit a = Text.hexDigit b) : a = b := by
  have hall : ∀ i < 16, ∀ j < 16, Text.hexDigit i = Text.hexDigit j → i = j := by decide
  exact hall a ha b hb h

/-- The digits of a word determine it. -/
theorem hexWord_inj {v w : UInt32} (h : hexWord v = hexWord w) : v = w := by
  have hdigit (i : Nat) (hi : i < 8) : v.toNat / 16 ^ i % 16 = w.toNat / 16 ^ i % 16 := by
    refine hexDigit_inj (Nat.mod_lt _ (by decide)) (Nat.mod_lt _ (by decide)) ?_
    exact List.map_inj_left.mp h i (by simpa using hi)
  have hv := v.toNat_lt
  have hw := w.toNat_lt
  refine UInt32.toNat_inj.mp ?_
  have h0 := hdigit 0 (by decide)
  have h1 := hdigit 1 (by decide)
  have h2 := hdigit 2 (by decide)
  have h3 := hdigit 3 (by decide)
  have h4 := hdigit 4 (by decide)
  have h5 := hdigit 5 (by decide)
  have h6 := hdigit 6 (by decide)
  have h7 := hdigit 7 (by decide)
  omega

/-- Words one after another are determined by their digits. -/
theorem flatMap_hexWord_inj {l m : List UInt32} (hlength : l.length = m.length)
    (h : l.flatMap hexWord = m.flatMap hexWord) : l = m := by
  induction l generalizing m with
  | nil => exact (List.length_eq_zero_iff.mp hlength.symm).symm
  | cons v l ih =>
    cases m with
    | nil => cases hlength
    | cons w m =>
      rw [List.flatMap_cons, List.flatMap_cons] at h
      obtain ⟨hword, hrest⟩ := List.append_inj h rfl
      rw [hexWord_inj hword, ih (Nat.succ.inj hlength) hrest]

/-- The words of a state determine it. -/
theorem State.words_inj {s t : State} (h : s.words = t.words) : s = t := by
  cases s
  cases t
  simpa [State.words] using h

/-! ## Bytes -/

/-- The bytes of an array one after another. -/
theorem toList_eq_data (b : ByteArray) : b.toList = b.data.toList := by
  have hloop (i : Nat) (l : List UInt8) :
      ByteArray.toList.loop b i l = l.reverse ++ b.data.toList.drop i := by
    fun_induction ByteArray.toList.loop b i l with
    | case1 i l h ih =>
      have hi : i < b.data.toList.length := by simpa using h
      have hget : b.get! i = b.data.toList[i] := by
        rw [ByteArray.get!, Array.getElem_toList]
        exact getElem!_pos b.data i h
      rw [ih, List.reverse_cons, List.append_assoc, List.singleton_append, hget,
        ← List.drop_eq_getElem_cons]
    | case2 i l h =>
      rw [List.drop_eq_nil_of_le (by simpa using h), List.append_nil]
  simpa [ByteArray.toList] using hloop 0 []

/-- The bytes of a text determine it. -/
theorem toUTF8_toList_inj {s t : String} (h : s.toUTF8.toList = t.toUTF8.toList) : s = t := by
  rw [toList_eq_data, toList_eq_data] at h
  exact String.toByteArray_inj.mp (ByteArray.ext (Array.toList_inj.mp h))

/-- The hexadecimal digest of a text stands for the digest of its bytes. -/
theorem hexDigest_eq_iff {s t : String} :
    hexDigest s = hexDigest t ↔ digest s.toUTF8.toList = digest t.toUTF8.toList := by
  constructor
  · intro h
    exact State.words_inj (flatMap_hexWord_inj rfl (String.ofList_injective h))
  · intro h
    rw [hexDigest, hexDigest, h]

/-- A hexadecimal digest has sixty-four digits. -/
theorem length_hexDigest (s : String) : (hexDigest s).toList.length = 64 := by
  rw [hexDigest, String.toList_ofList, List.length_flatMap]
  rfl

end Sha256

open Json (Value)

/-- Equal fingerprints have one scope and one digest, since all digests have one length. -/
theorem scope_and_digest_of_fingerprint_eq {p q : String} {v w : Value}
    (h : fingerprint p v = fingerprint q w) :
    p = q ∧ Sha256.hexDigest v.canonicalText = Sha256.hexDigest w.canonicalText := by
  have hchars := congrArg String.toList h
  rw [fingerprint, fingerprint, String.toList_append, @String.toList_append (q ++ ":")] at hchars
  obtain ⟨hscope, hdigest⟩ := List.append_inj' hchars
    ((Sha256.length_hexDigest _).trans (Sha256.length_hexDigest _).symm)
  rw [String.toList_append, String.toList_append] at hscope
  exact ⟨String.toList_inj.mp (List.append_cancel_right hscope), String.toList_inj.mp hdigest⟩

/-- If the digest does not collide on two canonical texts, then equal fingerprints come from one
scope and one canonical text. -/
theorem fingerprint_eq_iff {p q : String} {v w : Value}
    (h : Set.InjOn Sha256.digest {v.canonicalText.toUTF8.toList, w.canonicalText.toUTF8.toList}) :
    fingerprint p v = fingerprint q w ↔ p = q ∧ v.canonicalText = w.canonicalText := by
  constructor
  · intro heq
    obtain ⟨hscope, hdigest⟩ := scope_and_digest_of_fingerprint_eq heq
    have hbytes := Sha256.hexDigest_eq_iff.mp hdigest
    exact ⟨hscope, Sha256.toUTF8_toList_inj (h (by simp) (by simp) hbytes)⟩
  · rintro ⟨rfl, htext⟩
    rw [fingerprint, fingerprint, htext]

end SalesQuery
