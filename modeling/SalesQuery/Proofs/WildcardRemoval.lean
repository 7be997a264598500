import SalesQuery.Proofs.Expiry
import SalesQuery.Proofs.PatternMeaning

/-!
# Removing by a pattern

Removing the keys that match a pattern removes the entries whose keys the pattern selects, and no
others, whenever the pattern means to its parts what it means as it is written. Patterns in which a
backslash stands before every opening bracket always do (`KeyPattern.wildcards_remove_selected`). A
pattern that cannot be read removes nothing.
-/

namespace SalesQuery

namespace Store

/-- From the first store to the second, the entries whose keys the pattern selects were removed. -/
structure RemovesSelected (pattern : List Char) (s s' : Store) (count : Nat) : Prop where
  /-- Nothing is left under a key that is selected. -/
  removed : ∀ key : String, KeyPattern.Selects pattern key.toList → s'.entries.get? key = none
  /-- Under the other keys is what was there. -/
  kept : ∀ key : String, ¬ KeyPattern.Selects pattern key.toList →
    s'.entries.get? key = s.entries.get? key
  /-- The number is that of the keys that were selected. -/
  counted : count =
    {key : String | (s.entries.get? key).isSome = true ∧
      KeyPattern.Selects pattern key.toList}.ncard

/-- A pattern whose parts match the keys that it selects removes these. -/
theorem removesSelected_deleteMatching {p : KeyPattern} {pattern : List Char}
    (h : ∀ key : String, p.matchesKey key = true ↔ KeyPattern.Selects pattern key.toList)
    (s : Store) :
    RemovesSelected pattern s (s.deleteMatching p).2 (s.deleteMatching p).1 := by
  have hget (key : String) : (s.deleteMatching p).2.entries.get? key =
      (s.entries.get? key).filter fun _ => !p.matchesKey key := get?_keep ..
  constructor
  case removed =>
    intro key hkey
    rw [hget, (h key).mpr hkey]
    cases s.entries.get? key with
    | none => rfl
    | some stored => rfl
  case kept =>
    intro key hkey
    have hmatch : p.matchesKey key = false := Bool.eq_false_iff.mpr fun hm => hkey ((h key).mp hm)
    rw [hget, hmatch]
    cases s.entries.get? key with
    | none => rfl
    | some stored => rfl
  case counted =>
    simp only [deleteMatching_fst, h]

end Store

namespace KeyPattern

/-- A pattern is read, and it removes the entries whose keys it selects. -/
structure RemovesAsWritten (pattern : String) : Prop where
  /-- It is read as parts that match the keys that it selects, and removing these parts removes the
  entries of these keys. -/
  parts : ∃ p, ofString pattern = .ok p ∧
    (∀ key : String, p.matchesKey key = true ↔ Selects pattern.toList key.toList) ∧
    ∀ s : Store, s.RemovesSelected pattern.toList (s.deleteMatching p).2 (s.deleteMatching p).1
  /-- A store that is asked to remove the keys that match it removes these entries, and answers with
  their number. -/
  store : ∀ now (s : Store), ∃ s' count,
    s.perform now (.deleteMatching pattern) = (.deleted count, s') ∧
      s.RemovesSelected pattern.toList s' count
  /-- So does a cache with a store in which removing by pattern does not fail. -/
  cache : ∀ (cache : ResultCache) (m : Moment) (s : Store), cache.store = some s →
    m.outage.deleteMatching = false → ∃ s' count,
      cache.invalidatePattern m pattern = (count, { cache with store := some s' }) ∧
        s.RemovesSelected pattern.toList s' count

/-- Parts that match the keys that a pattern selects make it remove these keys. -/
theorem removesAsWritten_of_ofString {pattern : String} {p : KeyPattern}
    (hp : ofString pattern = .ok p)
    (h : ∀ key : String, p.matchesKey key = true ↔ Selects pattern.toList key.toList) :
    RemovesAsWritten pattern where
  parts := ⟨p, hp, h, Store.removesSelected_deleteMatching h⟩
  store now s := by
    refine ⟨_, _, ?_, Store.removesSelected_deleteMatching h s⟩
    rw [Store.perform, hp]
  cache cache m s hstore houtage := by
    refine ⟨_, _, ?_, Store.removesSelected_deleteMatching h s⟩
    rw [ResultCache.invalidatePattern, hstore, houtage, hp]

/-- A pattern without classes can be read, matches the keys that it selects, and removes exactly
their entries from every store. A pattern that cannot be read leaves every store as it is. -/
theorem wildcards_remove_selected (pattern : String) :
    (bracketsEscaped pattern.toList = true → RemovesAsWritten pattern) ∧
    ∀ fault, ofString pattern = .error fault →
      (∀ now (s : Store), s.perform now (.deleteMatching pattern) = (.refused fault, s)) ∧
      ∀ (cache : ResultCache) (m : Moment), cache.invalidatePattern m pattern = (0, cache) := by
  constructor
  · intro h
    obtain ⟨p, hp, hkeys⟩ := (faithful_of_bracketsEscaped h).exists_ofString
    exact removesAsWritten_of_ofString hp hkeys
  · intro fault hfault
    constructor
    · intro now s
      rw [Store.perform, hfault]
    · intro cache m
      unfold ResultCache.invalidatePattern
      rw [hfault]
      split
      · contradiction
      · rfl

/-- A pattern with escapes and runs of stars, which ends with a backslash; and a pattern that cannot
be read. -/
theorem wildcards_remove_selected_escaped :
    RemovesAsWritten "a**\\**\\[?]\\" ∧
    (∀ now (s : Store), s.perform now (.deleteMatching "a[") = (.refused ⟨1⟩, s)) ∧
    ∀ (cache : ResultCache) (m : Moment), cache.invalidatePattern m "a[" = (0, cache) :=
  ⟨(wildcards_remove_selected "a**\\**\\[?]\\").1 (by decide),
    (wildcards_remove_selected "a[").2 ⟨1⟩ (by cbv)⟩

end KeyPattern

end SalesQuery
