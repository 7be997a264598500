import Mathlib.Data.List.Nodup

/-!
# First entries of lists

A name stands for the first entry of a list that has it, and a check stops at the first entry that
it does not let pass. The lemmas here find these entries. Where no two entries share a name, the
entry found under a name is the one that has it (`find?_name_eq_some_iff`).
-/

namespace SalesQuery

variable {α β κ : Type} [DecidableEq κ] {l : List α}

/-- Under the name of an entry, the first entry with the name is found. -/
theorem find?_name_of_mem (name : α → κ) {a : α} (ha : a ∈ l) :
    ∃ before first after, l = before ++ first :: after ∧ name first = name a ∧
      (∀ b ∈ before, name b ≠ name a) ∧ (l.find? fun b => name b = name a) = some first := by
  obtain ⟨first, hfirst⟩ : ∃ b, (l.find? fun b => name b = name a) = some b := by
    rw [← Option.isSome_iff_exists, List.find?_isSome]
    exact ⟨a, ha, by simp⟩
  obtain ⟨hname, before, after, hl, hbefore⟩ := List.find?_eq_some_iff_append.mp hfirst
  exact ⟨before, first, after, hl, by simpa using hname, by simpa using hbefore, hfirst⟩

/-- Where no two entries share a name, the entry found under a name is the one that has it. -/
theorem find?_name_eq_some_iff {name : α → κ} (h : (l.map name).Nodup) {key : κ} {a : α} :
    (l.find? fun b => name b = key) = some a ↔ a ∈ l ∧ name a = key := by
  constructor
  · intro hfound
    exact ⟨List.mem_of_find?_eq_some hfound, by simpa using List.find?_some hfound⟩
  · rintro ⟨ha, rfl⟩
    obtain ⟨before, first, after, -, hname, -, hfirst⟩ := find?_name_of_mem name ha
    rw [hfirst, List.inj_on_of_nodup_map h (List.mem_of_find?_eq_some hfirst) ha hname]

/-- As far as `f` tells, every entry is found under its name exactly if entries that share a name
agree on `f`. -/
theorem forall_find?_name_iff (name : α → κ) {f : α → β} :
    (∀ a ∈ l, (l.find? fun b => name b = name a).map f = some (f a)) ↔
      ∀ a ∈ l, ∀ b ∈ l, name a = name b → f a = f b := by
  constructor
  · intro h a ha b hb hname
    have hfound := h a ha
    rw [hname, h b hb] at hfound
    exact (Option.some.inj hfound).symm
  · intro h a ha
    obtain ⟨before, first, after, rfl, hname, -, hfirst⟩ := find?_name_of_mem name ha
    rw [hfirst, Option.map_some, h first (by simp) a ha hname]

/-- A list that has an element without some property has a first one. -/
theorem exists_first_of_not_forall {p : α → Prop} {l : List α} (h : ¬ ∀ a ∈ l, p a) :
    ∃ before a after, l = before ++ a :: after ∧ (∀ b ∈ before, p b) ∧ ¬ p a := by
  induction l with
  | nil => exact absurd (fun a ha => absurd ha List.not_mem_nil) h
  | cons a l ih =>
    by_cases ha : p a
    · obtain ⟨before, b, after, rfl, hbefore, hb⟩ :=
        ih fun hl => h (List.forall_mem_cons.mpr ⟨ha, hl⟩)
      exact ⟨a :: before, b, after, rfl, List.forall_mem_cons.mpr ⟨ha, hbefore⟩, hb⟩
    · exact ⟨[], a, l, rfl, by simp, ha⟩

end SalesQuery
