import SalesQuery.Proofs.Admissibility
import SalesQuery.Proofs.MemberOrder

/-!
# Reading back what was written

A decoder `Reads` a value as what it was written for. This is shown for one way of writing after the
other, so that a record reads back if its parts do (`Reads.record`). JSON values are filters and
parts of filters; they are written as they are, and one that was read from JSON is read again as
itself, since its members are in the order of their names (`reads_of_value`). What has to hold of a
record for it to be read back holds of every record that was read, if it holds of each part
(`record_preserves`).
-/

namespace SalesQuery

/-- Entering the entries of a dictionary in their order makes the dictionary again. -/
theorem Dictionary.ofList_entries {α : Type} (d : Dictionary α) : ofList d.entries = d :=
  ext_entries (Json.Value.eq_of_perm_of_keysAscend (keysAscend _) d.keysAscend
    (ofList_perm (nodup_of_keysAscend d.keysAscend)))

namespace Json

/-- The members of an object are placed into it one after the other. -/
theorem Value.ofMembers_eq (l : List (String × Value)) :
    ofMembers l = .object (l.foldl (fun members m => insertEntry m.1 m.2 members) []) := by
  have hfold : ∀ (l : List (String × Value)) (d : Dictionary Value),
      (l.foldl (fun d m => d.insert m.1 m.2) d).entries =
        l.foldl (fun members m => insertEntry m.1 m.2 members) d.entries := by
    intro l
    induction l with
    | nil => exact fun _ => rfl
    | cons m l ih => exact fun d => ih (d.insert m.1 m.2)
  exact congrArg object (hfold l ∅)

namespace Document

theorem ofItems_eq_map (l : List Value) : ofItems l = l.map ofValue := by
  induction l with
  | nil => rfl
  | cons v l ih => rw [ofItems, ih, List.map_cons]

/-- Only `null` is written as `null`. -/
theorem ofValue_ne_null {v : Value} (h : v ≠ .null) : ofValue v ≠ .null := by
  cases v with
  | null => contradiction
  | _ => nofun

end Document

namespace Decoder

variable {α σ : Type} {decode : Decoder α} {encode : α → Value}

/-- The value is read as this, when it is at hand. -/
def Reads (decode : Decoder α) (v : Value) (a : α) : Prop :=
  decode none (Document.ofValue v) = .ok a

theorem Reads.ofValue_eq {v : Value} {a : α} (h : Reads decode v a) : ofValue decode v = .ok a :=
  mapError_eq_ok.mpr h

/-- A value is read in one way only. -/
theorem Reads.unique {v : Value} {a b : α} (h : Reads decode v a) (h' : Reads decode v b) : a = b :=
  Except.ok.inj (h.symm.trans h')

/-! ## Texts, numbers, lists and dictionaries -/

theorem reads_string (s : String) : Reads string (.string s) s := rfl

/-- A number that fits 64 bits with a sign is read back. -/
theorem reads_int64 {n : Int} (h : Text.fitsInt64 n) : Reads int64 (.int n) n := by
  rw [Reads, Value.int, Document.ofValue, int64, Number.int64?, if_pos h]

/-- Every number that is read fits 64 bits with a sign. -/
theorem fits_of_int64 {levels : Option Nat} {d : Document} {n : Int}
    (h : int64 levels d = .ok n) : Text.fitsInt64 n := by
  unfold int64 at h
  split at h
  · rename_i given
    cases given with
    | float x => cases h
    | int m =>
      rw [Number.int64?] at h
      split at h
      · rename_i hsome
        split at hsome
        · rename_i hfits
          rwa [← Except.ok.inj h, ← Option.some.inj hsome]
        · cases hsome
      · cases h
  · cases h

/-- What may be absent is read back, if nothing is written as `null` but absence. -/
theorem Reads.optional {o : Option α} (h : ∀ a ∈ o, Reads decode (encode a) a)
    (hnull : ∀ a, encode a ≠ .null) : Reads (optional decode) (.ofOption encode o) o := by
  cases o with
  | none => rfl
  | some a =>
    have hread : decode none (Document.ofValue (encode a)) = .ok a := h a rfl
    have hnull := Document.ofValue_ne_null (hnull a)
    rw [Reads, Value.ofOption, Decoder.optional.eq_def]
    split
    · contradiction
    · rw [hread]
      rfl

/-- What was read as something that may be absent was read as it is, if it is there. -/
theorem decode_of_optional {levels : Option Nat} {d : Document} {o : Option α}
    (h : optional decode levels d = .ok o) : ∀ a ∈ o, decode levels d = .ok a := by
  unfold Decoder.optional at h
  split at h
  · cases h
    nofun
  · obtain ⟨b, hb, rfl⟩ := map_eq_ok.mp h
    rintro _ ⟨⟩
    exact hb

/-- A list is read back if its items are. -/
theorem Reads.list {l : List α} (h : ∀ a ∈ l, Reads decode (encode a) a) :
    Reads (list decode) (.array (l.map encode)) l := by
  have hitems : (Document.ofItems (l.map encode)).mapM (decode none) = .ok l := by
    rw [mapM_eq_ok, Document.ofItems_eq_map, List.map_map, List.forall₂_map_left_iff,
      List.forall₂_same]
    exact h
  exact bind_eq_ok.mpr ⟨none, rfl, bind_eq_ok.mpr ⟨l, hitems, rfl⟩⟩

theorem reads_strings (l : List String) : Reads (Decoder.list string) (.strings l) l :=
  .list fun s _ => reads_string s

/-- A dictionary is read back if its values are. -/
theorem Reads.dictionary {d : Dictionary α}
    (h : ∀ entry ∈ d.entries, Reads decode (encode entry.2) entry.2) :
    Reads (dictionary decode) (.object (d.entries.map fun entry => (entry.1, encode entry.2)))
      d := by
  refine dictionary_eq_ok.mpr ⟨none, rfl, d.entries, ?_, d.ofList_entries⟩
  rw [Entries, List.forall₂_map_left_iff, List.forall₂_same]
  exact fun entry hentry => ⟨rfl, h entry hentry⟩

/-- Each value of a dictionary was read. -/
theorem exists_of_dictionary {levels : Option Nat} {d : Document} {dictionary : Dictionary α}
    (h : Decoder.dictionary decode levels d = .ok dictionary) :
    ∀ entry ∈ dictionary.entries, ∃ levels d, decode levels d = .ok entry.2 := by
  unfold Decoder.dictionary at h
  split at h
  · rename_i members complete
    obtain ⟨inner, -, h⟩ := bind_eq_ok.mp h
    obtain ⟨entries, hentries, h⟩ := bind_eq_ok.mp h
    split at h
    · intro entry hentry
      rw [← pure_eq_ok.mp h] at hentry
      obtain ⟨⟨name, d⟩, hmember⟩ := exists_forall₂_iff.mp ⟨members, (mapM_eq_ok.mp hentries).flip⟩
        entry (Dictionary.mem_of_mem_ofList hentry)
      cases name with
      | none => cases hmember
      | some name =>
        obtain ⟨a, ha, hmember⟩ := bind_eq_ok.mp hmember
        exact ⟨inner, d, by rw [ha, ← pure_eq_ok.mp hmember]⟩
    · cases h
  · cases h

/-! ## Values -/

/-- A list of values is read back if they are. -/
theorem values_ofItems {l : List Value} (h : ∀ v ∈ l, Reads value v v) :
    values none (Document.ofItems l) = .ok l := by
  induction l with
  | nil => rfl
  | cons v l ih =>
    obtain ⟨hv, hl⟩ := List.forall_mem_cons.mp h
    exact bind_eq_ok.mpr ⟨v, hv, bind_eq_ok.mpr ⟨l, ih hl, rfl⟩⟩

/-- So is the list of them. -/
theorem reads_array {l : List Value} (h : ∀ v ∈ l, Reads value v v) :
    Reads value (.array l) (.array l) :=
  bind_eq_ok.mpr ⟨none, rfl, bind_eq_ok.mpr ⟨l, values_ofItems h, rfl⟩⟩

/-- Named values are read back if they are. -/
theorem namedValues_ofMembers {l : List (String × Value)} (h : ∀ m ∈ l, Reads value m.2 m.2) :
    namedValues none (Document.ofMembers l) = .ok l := by
  induction l with
  | nil => rfl
  | cons m l ih =>
    obtain ⟨hm, hl⟩ := List.forall_mem_cons.mp h
    exact bind_eq_ok.mpr ⟨m.2, hm, bind_eq_ok.mpr ⟨l, ih hl, rfl⟩⟩

mutual

/-- A value that was read is read again as itself. -/
theorem reads_of_value : ∀ {d : Document} {levels : Option Nat} {v : Value},
    value levels d = .ok v → Reads value v v
  | .null, _, _, h => by cases h; rfl
  | .bool b, _, _, h => by cases h; rfl
  | .number (some n), _, _, h => by cases h; rfl
  | .string (some s), _, _, h => by cases h; rfl
  | .array items complete, levels, v, h => by
    obtain ⟨inner, -, h⟩ := bind_eq_ok.mp h
    obtain ⟨l, hl, h⟩ := bind_eq_ok.mp h
    split at h
    · obtain rfl := pure_eq_ok.mp h
      exact reads_array (reads_of_values hl)
    · cases h
  | .object members complete, levels, v, h => by
    obtain ⟨inner, -, h⟩ := bind_eq_ok.mp h
    obtain ⟨l, hl, h⟩ := bind_eq_ok.mp h
    split at h
    · obtain rfl := pure_eq_ok.mp h
      -- The members were put in the order of their names, so a second reading finds them in it.
      have hentries : namedValues none (Document.ofMembers (Dictionary.ofList l).entries) =
          .ok (Dictionary.ofList l).entries :=
        namedValues_ofMembers fun m hm =>
          reads_of_namedValues hl m (Dictionary.mem_of_mem_ofList hm)
      refine bind_eq_ok.mpr ⟨none, rfl, bind_eq_ok.mpr ⟨_, hentries, ?_⟩⟩
      rw [if_pos rfl, Value.ofMembers, Dictionary.ofList_entries, Value.ofMembers]
      rfl
    · cases h
  | .broken, _, _, h => by cases h
  | .number none, _, _, h => by cases h
  | .string none, _, _, h => by cases h

/-- So is each value of a list. -/
theorem reads_of_values : ∀ {items : List Document} {levels : Option Nat} {l : List Value},
    values levels items = .ok l → ∀ v ∈ l, Reads value v v
  | [], _, _, h => by
    cases h
    nofun
  | d :: items, levels, l, h => by
    obtain ⟨v, hv, h⟩ := bind_eq_ok.mp h
    obtain ⟨l, hl, h⟩ := bind_eq_ok.mp h
    rw [← pure_eq_ok.mp h]
    exact List.forall_mem_cons.mpr ⟨reads_of_value hv, reads_of_values hl⟩

/-- So is each of named values. -/
theorem reads_of_namedValues : ∀ {members : List (Option String × Document)}
    {levels : Option Nat} {l : List (String × Value)},
    namedValues levels members = .ok l → ∀ m ∈ l, Reads value m.2 m.2
  | [], _, _, h => by
    cases h
    nofun
  | (none, _) :: _, _, _, h => by cases h
  | (some name, d) :: members, levels, l, h => by
    obtain ⟨v, hv, h⟩ := bind_eq_ok.mp h
    obtain ⟨l, hl, h⟩ := bind_eq_ok.mp h
    rw [← pure_eq_ok.mp h]
    exact List.forall_mem_cons.mpr ⟨reads_of_value hv, reads_of_namedValues hl⟩

end

/-! ## Records -/

section Record

variable {fields : List (Field σ)} {levels : Option Nat}

/-- A member sets its part, if its value is read back. -/
theorem Entries.cons_setting {name : String} {required : Bool} {set : α → σ → σ} {v : Value} {a : α}
    {l : List (String × Value)} {changes : List (String × (σ → σ))}
    (hf : (fields.find? fun f => f.name = name) = some (.setting name required decode set))
    (h : Reads decode v a) (hrest : Entries (changeOf fields) none l changes) :
    Entries (changeOf fields) none ((name, v) :: l) ((name, set a) :: changes) := by
  refine .cons ⟨rfl, ?_⟩ hrest
  rw [changeOf_of_some hf]
  exact bind_eq_ok.mpr ⟨a, h, rfl⟩

/-- A record is read back from members under different names, with the required ones among them, if
each is read back as the change that it makes. -/
theorem Reads.record (keys : List String) (hkeys : keys.Nodup)
    (hrequired : ∀ f ∈ fields, f.required → f.name ∈ keys) {l : List (String × Value)}
    (hnames : Value.names l = keys) {changes : List (String × (σ → σ))}
    (hread : Entries (changeOf fields) none l changes) {initial a : σ}
    (ha : changes.foldl (fun a change => change.2 a) initial = a) :
    Reads (record fields initial) (.object l) a := by
  rw [← hnames] at hkeys hrequired
  exact bind_eq_ok.mpr ⟨none, rfl, (members_eq_ok hkeys (by simp)).mpr
    ⟨fun f hf hf' => .inr (hrequired f hf hf'), changes, hread, ha⟩⟩

/-- Whatever is read as the part changes a record in a way that preserves the property. -/
def Field.Preserves (f : Field σ) (P : σ → Prop) : Prop :=
  ∀ levels d change, f.read levels d = .ok change → ∀ a, P a → P (change a)

variable {P : σ → Prop}

/-- A part that is read by a decoder and then set preserves what setting it preserves. -/
theorem Field.Preserves.setting {name : String} {required : Bool} {set : α → σ → σ}
    (h : ∀ levels d a, decode levels d = .ok a → ∀ s, P s → P (set a s)) :
    (Field.setting name required decode set).Preserves P := by
  intro levels d change hchange
  obtain ⟨a, ha, hchange⟩ := bind_eq_ok.mp hchange
  rw [← pure_eq_ok.mp hchange]
  exact h levels d a ha

/-- What the parts preserve, members that are read preserve. -/
theorem members_preserves (hfields : ∀ f ∈ fields, f.Preserves P) {complete : Bool}
    {seen : List String} {initial a : σ} {l : List (Option String × Document)}
    (h : members fields levels complete seen initial l = .ok a) (hinitial : P initial) : P a := by
  induction l generalizing seen initial with
  | nil =>
    rw [members] at h
    split at h
    · cases h
    · split at h
      · exact Except.ok.inj h ▸ hinitial
      · cases h
  | cons m l ih =>
    obtain ⟨_ | name, d⟩ := m
    · cases h
    · rw [members] at h
      split at h
      · split at h
        · exact ih h hinitial
        · cases h
      · rename_i f hf
        split at h
        · cases h
        · obtain ⟨change, hchange, h⟩ := bind_eq_ok.mp h
          exact ih h (hfields f (List.mem_of_find?_eq_some hf) _ _ _ hchange _ hinitial)

/-- So do the items of a list that are read as the parts. -/
theorem positions_preserves (hfields : ∀ f ∈ fields, f.Preserves P) {complete : Bool}
    {initial a : σ} {l : List Document}
    (h : positions levels complete initial fields l = .ok a) (hinitial : P initial) : P a := by
  induction fields generalizing initial l with
  | nil =>
    cases l with
    | nil =>
      rw [positions] at h
      split at h
      · exact Except.ok.inj h ▸ hinitial
      · cases h
    | cons d l => cases h
  | cons f fields ih =>
    obtain ⟨hf, hfields⟩ := List.forall_mem_cons.mp hfields
    cases l with
    | nil =>
      rw [positions] at h
      split at h
      · cases h
      · split at h
        · cases h
        · exact ih hfields h hinitial
    | cons d l =>
      obtain ⟨change, hchange, h⟩ := bind_eq_ok.mp h
      exact ih hfields h (hf _ _ _ hchange _ hinitial)

/-- What holds at first and is preserved by the parts holds of every record that is read. -/
theorem record_preserves (hfields : ∀ f ∈ fields, f.Preserves P) {initial a : σ} {d : Document}
    (h : Decoder.record fields initial levels d = .ok a) (hinitial : P initial) : P a := by
  unfold Decoder.record at h
  split at h
  · obtain ⟨_, -, h⟩ := bind_eq_ok.mp h
    exact members_preserves hfields h hinitial
  · obtain ⟨_, -, h⟩ := bind_eq_ok.mp h
    exact positions_preserves hfields h hinitial
  · cases h

end Record

end Decoder

end Json

end SalesQuery
