import SalesQuery.Catalog.Restaurant
import SalesQuery.Query.Resolve
import SalesQuery.Proofs.AggregateGrammar

/-!
# The whitelist of custom aggregates

A custom aggregate goes into the statement as it was written, so its grammar is all that stands
between a request and the SQL. The names in it are meant to be ASCII: a function that is none of the
five in ASCII, or an alias with other characters, is not what the database knows. The reader takes
the case variants and blanks of Unicode for those of ASCII, though. So every selected aggregate is
in the grammar of `Aggregate.unicode`, and it is in that of `Aggregate.ascii` unless a long s, a
Kelvin sign or a blank beyond ASCII got through.
-/

namespace SalesQuery

open Aggregate

/-- A custom aggregate with the pieces that its text is written with in an alphabet. -/
structure CustomAggregate.IsWritten (alphabet : Alphabet) (c : Catalog) (a : CustomAggregate)
    (p : Pieces) : Prop where
  /-- The pieces are in the grammar. -/
  writes : alphabet.Writes p
  /-- They make up the whole text. -/
  text : a.text.toList = p.chars
  /-- The name of the column is the alias. -/
  aliasName : a.aliasName = String.ofList p.aliasName
  /-- The qualifier is that of the column, in lower case. -/
  qualifier : a.qualifier = p.qualifier.map fun q => Text.lowerAscii (String.ofList q)
  /-- The qualifier is an alias of the catalog. -/
  known : ∀ q ∈ a.qualifier, c.knowsAlias q

/-- A custom aggregate is in the grammar of an alphabet. -/
def CustomAggregate.WrittenIn (alphabet : Alphabet) (c : Catalog) (a : CustomAggregate) : Prop :=
  ∃ p, a.IsWritten alphabet c p

variable {c : Catalog} {token : String} {a : CustomAggregate}

/-- A token selects the metric of the catalog that it names, or the custom aggregate that it is
without the blanks around it. -/
theorem resolveMetric_eq_ok {m : MetricSelection} (h : resolveMetric c token = .ok m) :
    (m = .catalog token ∧ (c.metric? token).isSome) ∨
      ∃ a, m = .custom a ∧ a.text = Text.trim token ∧ a.WrittenIn unicode c := by
  rw [resolveMetric] at h
  split at h
  · rename_i hmetric
    cases h
    exact .inl ⟨rfl, hmetric⟩
  · right
    dsimp only at h
    split at h
    · cases h
    · rename_i qualifier aliasName hparts
      split at h
      · rename_i hknown
        cases h
        obtain ⟨p, hp, htext, rfl, rfl⟩ := exists_pieces_of_parts? hparts
        refine ⟨_, rfl, rfl, p, hp, htext, rfl, Option.map_map .., fun q hq => ?_⟩
        have hq : (p.qualifier.map String.ofList).map Text.lowerAscii = some q := hq
        rwa [hq] at hknown
      · cases h

/-! ## Characters of ASCII and others -/

namespace Aggregate

/-- The fold differs from lower case in ASCII at two characters only. -/
theorem fold_eq_toLower_or (ch : Char) : fold ch = ch.toLower ∨ ch = 'ſ' ∨ ch = '\u212A' := by
  rw [fold]
  split
  · exact .inr (.inl ‹_›)
  · split
    · exact .inr (.inr ‹_›)
    · exact .inl rfl

/-- The characters of names in ASCII are ASCII characters. -/
theorem toNat_lt_of_continuesName {ch : Char} (h : ascii.continuesName ch) : ch.toNat < 128 := by
  have hlower : ch.toLower.toNat < 128 → ch.toNat < 128 := by
    intro hlt
    delta Char.toLower at hlt
    split at hlt
    · rename_i hupper
      have hle : ch.val.toNat ≤ 'Z'.val.toNat := UInt32.le_iff_toNat_le.mp hupper.2
      exact Nat.lt_of_le_of_lt hle (by decide)
    · exact hlt
  have hle : ∀ {d e : Char}, d ≤ e → d.toNat ≤ e.toNat := UInt32.le_iff_toNat_le.mp
  have h : (ch.toLower = '_' || ('a' ≤ ch.toLower && ch.toLower ≤ 'z') || ch.isDigit) = true := h
  simp only [Bool.or_eq_true, Bool.and_eq_true, decide_eq_true_eq] at h
  rcases h with (h | h) | h
  · exact hlower (by rw [h]; decide)
  · exact hlower (Nat.lt_of_le_of_lt (hle h.2) (by decide))
  · rw [Char.isDigit, Bool.and_eq_true, decide_eq_true_eq, decide_eq_true_eq] at h
    exact Nat.lt_of_le_of_lt (UInt32.le_iff_toNat_le.mp h.2) (by decide)

/-- A character of names in Unicode is one in ASCII, a long s or a Kelvin sign. -/
theorem continuesName_ascii_or {ch : Char} (h : unicode.continuesName ch) :
    ascii.continuesName ch ∨ ch = 'ſ' ∨ ch = '\u212A' := by
  rcases fold_eq_toLower_or ch with hfold | hother
  · left
    rw [Alphabet.continuesName, Alphabet.startsName] at h ⊢
    rwa [show ascii.fold ch = unicode.fold ch from hfold.symm]
  · exact .inr hother

/-- On ASCII characters, the alphabet of Unicode is that of ASCII. -/
theorem agree_of_forall_lt {l : List Char} (h : ∀ ch ∈ l, ch.toNat < 128) :
    Alphabet.Agree unicode ascii l := by
  intro ch hch
  have hlt := h ch hch
  refine ⟨?_, ?_⟩
  · rcases fold_eq_toLower_or ch with hfold | rfl | rfl
    · exact hfold
    · exact absurd hlt (by decide)
    · exact absurd hlt (by decide)
  · show Text.isBlank ch = (ch.toNat = 0x20 || (0x09 ≤ ch.toNat && ch.toNat ≤ 0x0D))
    rw [Bool.eq_iff_iff]
    simp only [Text.isBlank, Text.blankRanges, List.any_cons, List.any_nil, Bool.or_eq_true,
      Bool.and_eq_true, decide_eq_true_eq, Bool.false_eq_true, or_false]
    omega

/-- The characters beyond ASCII in a text in the grammar of Unicode are long s, Kelvin signs and
blanks. -/
theorem Alphabet.Writes.beyond_ascii {p : Pieces} (h : unicode.Writes p) :
    ∀ ch ∈ p.chars, 128 ≤ ch.toNat → ch = 'ſ' ∨ ch = '\u212A' ∨ Text.isBlank ch := by
  refine h.forall_chars ⟨by decide, by decide, by decide⟩ (fun ch hch hge => ?_)
    fun ch hch _ => .inr (.inr hch)
  rcases continuesName_ascii_or hch with hch | rfl | rfl
  · have hlt := toNat_lt_of_continuesName hch
    omega
  · exact .inl rfl
  · exact .inr (.inl rfl)

end Aggregate

/-! ## The whitelist -/

/-- A custom aggregate is what may go into a statement: ASCII text in the grammar of ASCII. -/
def CustomAggregate.Whitelisted (c : Catalog) (a : CustomAggregate) : Prop :=
  (∀ ch ∈ a.text.toList, ch.toNat < 128) ∧ a.WrittenIn ascii c

/-- A custom aggregate in the grammar of Unicode is whitelisted exactly if its characters are
ASCII. -/
theorem CustomAggregate.WrittenIn.whitelisted_iff (h : a.WrittenIn unicode c) :
    a.Whitelisted c ↔ ∀ ch ∈ a.text.toList, ch.toNat < 128 := by
  refine ⟨And.left, fun hascii => ⟨hascii, ?_⟩⟩
  obtain ⟨p, hp⟩ := h
  rw [hp.text] at hascii
  exact ⟨p, { hp with writes := hp.writes.of_agree (agree_of_forall_lt hascii) }⟩

/-- Every custom aggregate that a token selects is the token without the blanks around it and in the
grammar of Unicode. It is whitelisted exactly if it has no long s, no Kelvin sign and no blank
beyond ASCII. -/
theorem CustomAggregate.whitelisted_of_resolveMetric
    (h : resolveMetric c token = .ok (.custom a)) :
    a.text = Text.trim token ∧ a.WrittenIn unicode c ∧
      (a.Whitelisted c ↔
        ∀ ch ∈ a.text.toList, ch ≠ 'ſ' ∧ ch ≠ '\u212A' ∧ (Text.isBlank ch → ch.toNat < 128)) := by
  obtain ⟨hcatalog, _⟩ | ⟨a', ha, htext, hwritten⟩ := resolveMetric_eq_ok h
  · contradiction
  · obtain rfl := MetricSelection.custom.inj ha
    refine ⟨htext, hwritten, ?_⟩
    rw [hwritten.whitelisted_iff]
    obtain ⟨p, hp⟩ := hwritten
    rw [hp.text]
    refine forall₂_congr fun ch hch => ⟨fun hlt => ⟨?_, ?_, fun _ => hlt⟩, ?_⟩
    · rintro rfl
      exact absurd hlt (by decide)
    · rintro rfl
      exact absurd hlt (by decide)
    · rintro ⟨hs, hk, hblank⟩
      by_contra hge
      rcases hp.writes.beyond_ascii ch hch (Nat.le_of_not_lt hge) with rfl | rfl | h
      · exact hs rfl
      · exact hk rfl
      · exact hge (hblank h)

/-- A count of distinct customers is whitelisted. -/
theorem CustomAggregate.whitelisted_count :
    resolveMetric Catalog.restaurant " count(DISTINCT S.customer_id)\tas Clientes " =
        .ok (.custom ⟨"count(DISTINCT S.customer_id)\tas Clientes", "Clientes", some "s"⟩) ∧
      Whitelisted Catalog.restaurant
        ⟨"count(DISTINCT S.customer_id)\tas Clientes", "Clientes", some "s"⟩ := by
  have hselected : resolveMetric Catalog.restaurant
      " count(DISTINCT S.customer_id)\tas Clientes " =
        .ok (.custom ⟨"count(DISTINCT S.customer_id)\tas Clientes", "Clientes", some "s"⟩) := by
    decide +kernel
  have hchars : "count(DISTINCT S.customer_id)\tas Clientes".toList.all fun ch =>
      ch ≠ 'ſ' && ch ≠ '\u212A' && (!Text.isBlank ch || ch.toNat < 128) := by
    decide +kernel
  refine ⟨hselected, (whitelisted_of_resolveMetric hselected).2.2.mpr fun ch hch => ?_⟩
  simpa [and_assoc, imp_iff_not_or] using List.all_eq_true.mp hchars ch hch

/-- A sum whose name starts with a long s is selected as it was written, and so are an alias that is
a Kelvin sign and a blank that the database takes for a letter. None of them is whitelisted. -/
theorem CustomAggregate.not_whitelisted :
    (resolveMetric Catalog.restaurant "ſUM(s.total_amount) AS x" =
        .ok (.custom ⟨"ſUM(s.total_amount) AS x", "x", some "s"⟩) ∧
      ¬ Whitelisted Catalog.restaurant ⟨"ſUM(s.total_amount) AS x", "x", some "s"⟩) ∧
    (resolveMetric Catalog.restaurant "SUM(s.total_amount) AS \u212A" =
        .ok (.custom ⟨"SUM(s.total_amount) AS \u212A", "\u212A", some "s"⟩) ∧
      ¬ Whitelisted Catalog.restaurant
        ⟨"SUM(s.total_amount) AS \u212A", "\u212A", some "s"⟩) ∧
    resolveMetric Catalog.restaurant "SUM(s.total_amount)\u00A0AS x" =
        .ok (.custom ⟨"SUM(s.total_amount)\u00A0AS x", "x", some "s"⟩) ∧
      ¬ Whitelisted Catalog.restaurant ⟨"SUM(s.total_amount)\u00A0AS x", "x", some "s"⟩ := by
  refine ⟨⟨by decide +kernel, ?_⟩, ⟨by decide +kernel, ?_⟩, by decide +kernel, ?_⟩
  · rintro ⟨hascii, _⟩
    exact absurd (hascii 'ſ' (by decide +kernel)) (by decide)
  · rintro ⟨hascii, _⟩
    exact absurd (hascii '\u212A' (by decide +kernel)) (by decide)
  · rintro ⟨hascii, _⟩
    exact absurd (hascii '\u00A0' (by decide +kernel)) (by decide)

end SalesQuery
