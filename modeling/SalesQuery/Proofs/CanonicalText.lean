import Mathlib.Data.List.Perm.Basic
import SalesQuery.Proofs.Fingerprint
import SalesQuery.Proofs.JsonText

/-!
# What the canonical text tells

Two values differ in the order of members only (`Value.Reordered`) exactly if they have one
canonical text (`Value.canonicalText_eq_iff`). Sorting a value reorders its members, and the sorted
members of an object are the only list in the order of names that holds them; the text of the
sorted value then tells it from any other.
-/

namespace SalesQuery.Json.Value

/-! ## Values up to the order of members -/

mutual

/-- The values differ at most in the order of the members of objects, at any depth. -/
inductive Reordered : Value → Value → Prop
  /-- A value is itself. -/
  | refl (v : Value) : Reordered v v
  /-- Lists have their values in one order. -/
  | array {l m : List Value} : ReorderedItems l m → Reordered (.array l) (.array m)
  /-- Objects have their members in any order. -/
  | object {l m : List (String × Value)} : ReorderedMembers l m → Reordered (.object l) (.object m)

/-- The lists have values at the same places that differ at most in the order of members. -/
inductive ReorderedItems : List Value → List Value → Prop
  /-- Nothing is at any place. -/
  | nil : ReorderedItems [] []
  /-- The first values agree, and the others do. -/
  | cons {v w : Value} {l m : List Value} :
    Reordered v w → ReorderedItems l m → ReorderedItems (v :: l) (w :: m)

/-- The members of the one list are those of the other in some order, each with a value that differs
at most in the order of members. -/
inductive ReorderedMembers : List (String × Value) → List (String × Value) → Prop
  /-- There are no members. -/
  | nil : ReorderedMembers [] []
  /-- The first members agree in their name, and so do the others. -/
  | cons (name : String) {v w : Value} {l m : List (String × Value)} :
    Reordered v w → ReorderedMembers l m → ReorderedMembers ((name, v) :: l) ((name, w) :: m)
  /-- The first two members change places. -/
  | swap (x y : String × Value) (l : List (String × Value)) :
    ReorderedMembers (x :: y :: l) (y :: x :: l)
  /-- One reordering follows another. -/
  | trans {l m n : List (String × Value)} :
    ReorderedMembers l m → ReorderedMembers m n → ReorderedMembers l n

end

theorem ReorderedItems.refl (l : List Value) : ReorderedItems l l := by
  induction l with
  | nil => exact .nil
  | cons v l ih => exact .cons (.refl v) ih

theorem ReorderedMembers.refl (l : List (String × Value)) : ReorderedMembers l l := by
  induction l with
  | nil => exact .nil
  | cons m l ih => exact .cons m.1 (.refl m.2) ih

mutual

theorem Reordered.symm : ∀ {v w : Value}, Reordered v w → Reordered w v
  | _, _, .refl v => .refl v
  | _, _, .array h => .array h.symm
  | _, _, .object h => .object h.symm

theorem ReorderedItems.symm : ∀ {l m : List Value}, ReorderedItems l m → ReorderedItems m l
  | _, _, .nil => .nil
  | _, _, .cons hv hl => .cons hv.symm hl.symm

theorem ReorderedMembers.symm :
    ∀ {l m : List (String × Value)}, ReorderedMembers l m → ReorderedMembers m l
  | _, _, .nil => .nil
  | _, _, .cons name hv hl => .cons name hv.symm hl.symm
  | _, _, .swap x y l => .swap y x l
  | _, _, .trans hl hm => .trans hm.symm hl.symm

end

mutual

theorem Reordered.trans : ∀ {u v w : Value}, Reordered u v → Reordered v w → Reordered u w
  | _, _, _, .refl _, h => h
  | _, _, _, h, .refl _ => h
  | _, _, _, .array h, .array h' => .array (h.trans h')
  | _, _, _, .object h, .object h' => .object (.trans h h')

theorem ReorderedItems.trans :
    ∀ {l m n : List Value}, ReorderedItems l m → ReorderedItems m n → ReorderedItems l n
  | _, _, _, .nil, .nil => .nil
  | _, _, _, .cons hv hl, .cons hv' hl' => .cons (hv.trans hv') (hl.trans hl')

end

/-- A permutation of members is a reordering. -/
theorem ReorderedMembers.of_perm {l m : List (String × Value)} (h : l.Perm m) :
    ReorderedMembers l m := by
  induction h with
  | nil => exact .nil
  | cons m _ ih => exact .cons m.1 (.refl m.2) ih
  | swap x y l => exact .swap y x l
  | trans _ _ ih ih' => exact .trans ih ih'

/-! ## Sorting -/

/-- The names of members. -/
def names (l : List (String × Value)) : List String := l.map (·.1)

/-- An entry placed under a new key is added. -/
theorem insertEntry_perm {α : Type} {key : String} {l : List (String × α)} (a : α)
    (h : key ∉ l.map (·.1)) : (insertEntry key a l).Perm ((key, a) :: l) := by
  induction l with
  | nil => exact .refl _
  | cons entry l ih =>
    obtain ⟨k, b⟩ := entry
    obtain ⟨hk, hl⟩ := not_or.mp (List.mem_cons.not.mp h)
    rw [insertEntry]
    split
    · exact .refl _
    · exact ((ih hl).cons (k, b)).trans (.swap _ _ l)

/-- The members are sorted by name. -/
theorem keysAscend_sortedMembers (l : List (String × Value)) : KeysAscend (sortedMembers l) := by
  induction l with
  | nil => exact .nil
  | cons m l ih =>
    obtain ⟨name, v⟩ := m
    rw [sortedMembers]
    split
    · exact ih
    · exact keysAscend_insertEntry ih

/-- Without repeated names, sorting keeps all members, with a sorted value each. -/
theorem sortedMembers_perm {l : List (String × Value)} (h : (names l).Nodup) :
    (sortedMembers l).Perm (l.map fun m => (m.1, m.2.sorted)) := by
  induction l with
  | nil => exact .refl _
  | cons m l ih =>
    obtain ⟨name, v⟩ := m
    obtain ⟨hname, hl⟩ := List.nodup_cons.mp h
    have hnames : (names (sortedMembers l)).Perm (names l) := by
      simpa [names, Function.comp_def] using (ih hl).map (·.1)
    have hnew : name ∉ names (sortedMembers l) := fun hmem => hname (hnames.mem_iff.mp hmem)
    have hany : ¬((sortedMembers l).any fun m => m.1 = name) = true := by
      rw [List.any_eq_true]
      rintro ⟨m, hm, heq⟩
      exact hnew (List.mem_map.mpr ⟨m, hm, of_decide_eq_true heq⟩)
    rw [sortedMembers]
    simp only [if_neg hany]
    exact (insertEntry_perm v.sorted hnew).trans ((ih hl).cons _)

/-- Members in the order of their names are determined by what they are. -/
theorem eq_of_perm_of_keysAscend {α : Type} {l m : List (String × α)} (hl : KeysAscend l)
    (hm : KeysAscend m) (h : l.Perm m) : l = m := by
  refine List.Perm.eq_of_pairwise ?_ hl hm h
  intro a b _ _ hab hba
  exact absurd (String.lt_trans hab hba) (String.lt_irrefl _)

mutual

/-- A value with its members sorted has them in another order. -/
theorem reordered_sorted (v : Value) (hv : v.Proper) : Reordered v v.sorted := by
  cases v with
  | array items => exact .array (reordered_sortedItems items hv)
  | object members =>
    exact .object ((reordered_map_sorted members hv.2).trans
      (.of_perm (sortedMembers_perm hv.1).symm))
  | _ => exact .refl _

/-- Sorting within the values of a list reorders within them. -/
theorem reordered_sortedItems (l : List Value) (hl : ProperItems l) :
    ReorderedItems l (sortedItems l) := by
  cases l with
  | nil => exact .nil
  | cons v l => exact .cons (reordered_sorted v hl.1) (reordered_sortedItems l hl.2)

/-- Sorting within the values of members reorders within them. -/
theorem reordered_map_sorted (l : List (String × Value)) (hl : ProperMembers l) :
    ReorderedMembers l (l.map fun m => (m.1, m.2.sorted)) := by
  cases l with
  | nil => exact .nil
  | cons m l =>
    obtain ⟨name, v⟩ := m
    exact .cons name (reordered_sorted v hl.1) (reordered_map_sorted l hl.2)

end

mutual

/-- A reordered value is as proper as the value, and sorting gives the same for both. -/
theorem Reordered.sorted_eq : ∀ {v w : Value}, Reordered v w → v.Proper →
    w.Proper ∧ v.sorted = w.sorted
  | _, _, .refl _, hv => ⟨hv, rfl⟩
  | _, _, .array h, hv => by
    obtain ⟨hw, heq⟩ := h.sorted_eq hv
    exact ⟨hw, by rw [sorted, sorted, heq]⟩
  | _, _, .object h, hv => by
    obtain ⟨hnames, hw, heq⟩ := h.sorted_eq hv.1 hv.2
    exact ⟨⟨hnames.nodup_iff.mp hv.1, hw⟩, by rw [sorted, sorted, heq]⟩

/-- So are the values of reordered lists. -/
theorem ReorderedItems.sorted_eq : ∀ {l m : List Value}, ReorderedItems l m → ProperItems l →
    ProperItems m ∧ sortedItems l = sortedItems m
  | _, _, .nil, hl => ⟨hl, rfl⟩
  | _, _, .cons hv h, hl => by
    obtain ⟨hw, heq⟩ := hv.sorted_eq hl.1
    obtain ⟨hm, heq'⟩ := h.sorted_eq hl.2
    exact ⟨⟨hw, hm⟩, by rw [sortedItems, sortedItems, heq, heq']⟩

/-- So are reordered members, which have the same names. -/
theorem ReorderedMembers.sorted_eq : ∀ {l m : List (String × Value)}, ReorderedMembers l m →
    (names l).Nodup → ProperMembers l →
    (names l).Perm (names m) ∧ ProperMembers m ∧ sortedMembers l = sortedMembers m
  | _, _, .nil, _, hl => ⟨.nil, hl, rfl⟩
  | _, _, .cons name hv h, hnames, hl => by
    obtain ⟨hw, heq⟩ := hv.sorted_eq hl.1
    obtain ⟨hperm, hm, heq'⟩ := h.sorted_eq (List.nodup_cons.mp hnames).2 hl.2
    exact ⟨hperm.cons name, ⟨hw, hm⟩, by rw [sortedMembers, sortedMembers, heq, heq']⟩
  | _, _, .swap x y l, hnames, hl => by
    have hswap : (x :: y :: l).Perm (y :: x :: l) := .swap y x l
    have hperm : (names (x :: y :: l)).Perm (names (y :: x :: l)) := hswap.map _
    have hnames' := hperm.nodup_iff.mp hnames
    refine ⟨hperm, ⟨hl.2.1, hl.1, hl.2.2⟩, ?_⟩
    refine eq_of_perm_of_keysAscend (keysAscend_sortedMembers _) (keysAscend_sortedMembers _) ?_
    exact ((sortedMembers_perm hnames).trans (hswap.map _)).trans (sortedMembers_perm hnames').symm
  | _, _, .trans h h', hnames, hl => by
    obtain ⟨hperm, hm, heq⟩ := h.sorted_eq hnames hl
    obtain ⟨hperm', hn, heq'⟩ := h'.sorted_eq (hperm.nodup_iff.mp hnames) hm
    exact ⟨hperm.trans hperm', hn, heq.trans heq'⟩

end

/-! ## The canonical text -/

/-- Values that a JSON text can hold have one canonical text exactly if they differ at most in the
order of members. -/
theorem canonicalText_eq_iff {v w : Value} (hv : v.Proper) (hw : w.Proper) :
    v.canonicalText = w.canonicalText ↔ Reordered v w := by
  have hsorted {u : Value} (hu : u.Proper) : u.sorted.Proper :=
    ((reordered_sorted u hu).sorted_eq hu).1
  constructor
  · intro h
    have heq : v.sorted = w.sorted := text_inj (hsorted hv) (hsorted hw) h
    have hv' := reordered_sorted v hv
    rw [heq] at hv'
    exact hv'.trans (reordered_sorted w hw).symm
  · intro h
    rw [canonicalText, canonicalText, (h.sorted_eq hv).2]

end SalesQuery.Json.Value

namespace SalesQuery

open Json (Value)

/-- Canonical texts and fingerprints identify what a JSON text can hold, up to the order of members
and no further: a fingerprint moreover tells its scope, if the digest does not collide on the two
texts. -/
theorem fingerprint_identifies {v w : Value} (hv : v.Proper) (hw : w.Proper) :
    (v.canonicalText = w.canonicalText ↔ v.Reordered w) ∧
      (Set.InjOn Sha256.digest {v.canonicalText.toUTF8.toList, w.canonicalText.toUTF8.toList} →
        ∀ p q : String, fingerprint p v = fingerprint q w ↔ p = q ∧ v.Reordered w) := by
  have htext := Value.canonicalText_eq_iff hv hw
  refine ⟨htext, fun hinj p q => ?_⟩
  rw [fingerprint_eq_iff hinj, htext]

/-- An object of an integer and a double, and the same object with its members the other way round,
have one fingerprint within a scope. -/
theorem fingerprint_identifies_swapped :
    let v : Value := .object [("limit", .int 10), ("share", .number (.float ⟨4609434218613702656⟩))]
    let w : Value := .object [("share", .number (.float ⟨4609434218613702656⟩)), ("limit", .int 10)]
    v.Proper ∧ w.Proper ∧
      Set.InjOn Sha256.digest {v.canonicalText.toUTF8.toList, w.canonicalText.toUTF8.toList} ∧
      fingerprint queryScope v = fingerprint queryScope w := by
  intro v w
  have hv : v.Proper := ⟨by decide, trivial, rfl, trivial⟩
  have hw : w.Proper := ⟨by decide, rfl, trivial, trivial⟩
  have hswap : v.Reordered w := .object (.swap _ _ [])
  obtain ⟨htext, hfingerprint⟩ := fingerprint_identifies hv hw
  have hinj : Set.InjOn Sha256.digest
      {v.canonicalText.toUTF8.toList, w.canonicalText.toUTF8.toList} := by
    rw [htext.mpr hswap, Set.pair_eq_singleton]
    exact Set.injOn_singleton _ _
  exact ⟨hv, hw, hinj, (hfingerprint hinj queryScope queryScope).mpr ⟨rfl, hswap⟩⟩

end SalesQuery
