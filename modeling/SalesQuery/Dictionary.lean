/-!
# Dictionaries

A `Dictionary` maps texts to values and lists its entries in the order of their keys. The order and
the absence of repeated keys are part of the type, so two dictionaries with the same entries are
equal.
-/

universe u

namespace SalesQuery

variable {α : Type u}

/-- Places an entry into a list ordered by key. An entry already held under the key is replaced. -/
def insertEntry (key : String) (a : α) : List (String × α) → List (String × α)
  | [] => [(key, a)]
  | (k, b) :: rest =>
    if key < k then (key, a) :: (k, b) :: rest
    else if key = k then (key, a) :: rest
    else (k, b) :: insertEntry key a rest

/-- Every key of the list lies above the one given. -/
def KeysAbove (key : String) (l : List (String × α)) : Prop :=
  ∀ entry ∈ l, key < entry.1

/-- Each key is below every later one. -/
def KeysAscend (l : List (String × α)) : Prop :=
  l.Pairwise fun a b => a.1 < b.1

theorem keysAbove_insertEntry {key k : String} {a : α} {l : List (String × α)}
    (h : k < key) (hl : KeysAbove k l) : KeysAbove k (insertEntry key a l) := by
  induction l with
  | nil => simpa [insertEntry, KeysAbove] using h
  | cons entry rest ih =>
    obtain ⟨k', b⟩ := entry
    have hrest : KeysAbove k rest := fun x hx => hl x (List.mem_cons_of_mem _ hx)
    simp only [insertEntry]
    split
    · exact List.forall_mem_cons.2 ⟨h, hl⟩
    · split
      · exact List.forall_mem_cons.2 ⟨h, hrest⟩
      · exact List.forall_mem_cons.2 ⟨hl _ (List.mem_cons_self ..), ih hrest⟩

/-- Placing an entry keeps the order of the keys. -/
theorem keysAscend_insertEntry {key : String} {a : α} {l : List (String × α)}
    (hl : KeysAscend l) : KeysAscend (insertEntry key a l) := by
  induction l with
  | nil => simp [insertEntry, KeysAscend]
  | cons entry rest ih =>
    obtain ⟨k, b⟩ := entry
    obtain ⟨hk, hrest⟩ := List.pairwise_cons.1 hl
    simp only [insertEntry]
    split
    · rename_i hlt
      refine List.pairwise_cons.2 ⟨List.forall_mem_cons.2 ⟨hlt, fun x hx => ?_⟩, hl⟩
      exact String.lt_trans hlt (hk x hx)
    · split
      · rename_i heq
        exact List.pairwise_cons.2 ⟨fun x hx => heq ▸ hk x hx, hrest⟩
      · rename_i hnlt hne
        have hlt : k < key := by
          rcases String.le_total k key with h | h
          · exact Std.lt_of_le_of_ne h (Ne.symm hne)
          · exact absurd (Std.lt_of_le_of_ne h hne) hnlt
        exact List.pairwise_cons.2 ⟨keysAbove_insertEntry hlt hk, ih hrest⟩

/-- A finite map from texts, with its entries in the order of their keys. -/
structure Dictionary (α : Type u) where
  /-- The entries in the order of their keys. -/
  entries : List (String × α)
  /-- The keys ascend, so none occurs twice. -/
  keysAscend : KeysAscend entries

namespace Dictionary

instance [DecidableEq α] : DecidableEq (Dictionary α) := fun d e =>
  decidable_of_iff (d.entries = e.entries) <| by
    cases d; cases e; simp

/-- The dictionary without entries. -/
def empty : Dictionary α := ⟨[], List.Pairwise.nil⟩

instance : EmptyCollection (Dictionary α) := ⟨empty⟩

instance : Inhabited (Dictionary α) := ⟨empty⟩

/-- Maps `key` to `a`, in place of any value it had. -/
def insert (d : Dictionary α) (key : String) (a : α) : Dictionary α :=
  ⟨insertEntry key a d.entries, keysAscend_insertEntry d.keysAscend⟩

/-- Removes a key with its value. -/
def erase (d : Dictionary α) (key : String) : Dictionary α :=
  ⟨d.entries.filter fun entry => entry.1 ≠ key, d.keysAscend.filter _⟩

/-- The value of a key. -/
def get? (d : Dictionary α) (key : String) : Option α :=
  (d.entries.find? fun entry => entry.1 = key).map (·.2)

/-- Enters the pairs one after the other, so that the last value given for a key stays. -/
def ofList (l : List (String × α)) : Dictionary α :=
  l.foldl (fun d entry => d.insert entry.1 entry.2) ∅

/-- Whether there are no entries. -/
def isEmpty (d : Dictionary α) : Bool := d.entries.isEmpty

end Dictionary

end SalesQuery
