import SalesQuery.Proofs.CacheKeys

/-!
# The order of members does not matter

A request is read from the members of objects one after the other, and the first fault ends the
reading. Still, the order of members decides at most which fault it is: `Decoder.OrderFree` says
that a decoder reads the same from values that differ in the order of members, or from neither.
Values and dictionaries are put in the order of their names as they are read. A record is changed
member by member, and changes of different parts commute (`Decoder.OrderFree.record`).
-/

namespace SalesQuery

namespace Dictionary

/-- A dictionary made of permuted pairs is the same, if no name is repeated. -/
theorem ofList_eq_of_perm {α : Type} {l m : List (String × α)} (h : l.Perm m)
    (hl : (l.map (·.1)).Nodup) : ofList l = ofList m := by
  have hm : (m.map (·.1)).Nodup := (h.map (·.1)).nodup_iff.mp hl
  refine ext_entries (Json.Value.eq_of_perm_of_keysAscend (keysAscend _)
    (keysAscend _) ?_)
  exact (ofList_perm hl).trans (h.trans (ofList_perm hm).symm)

end Dictionary

namespace Json

/-! ## Values that are at hand -/

namespace Value

mutual

/-- How many lists and objects stand within each other. -/
def depth : Value → Nat
  | .array items => depthItems items + 1
  | .object members => depthMembers members + 1
  | _ => 0

/-- The greatest depth of a list of values. -/
def depthItems : List Value → Nat
  | [] => 0
  | v :: rest => max (depth v) (depthItems rest)

/-- The greatest depth of named values. -/
def depthMembers : List (String × Value) → Nat
  | [] => 0
  | (_, v) :: rest => max (depth v) (depthMembers rest)

end

mutual

/-- Values that differ in the order of members are equally deep. -/
theorem Reordered.depth_eq : ∀ {v w : Value}, Reordered v w → v.depth = w.depth
  | _, _, .refl _ => rfl
  | _, _, .array h => by rw [depth, depth, h.depth_eq]
  | _, _, .object h => by rw [depth, depth, h.depth_eq]

/-- So are lists of such values. -/
theorem ReorderedItems.depth_eq :
    ∀ {l m : List Value}, ReorderedItems l m → depthItems l = depthItems m
  | _, _, .nil => rfl
  | _, _, .cons hv h => by rw [depthItems, depthItems, hv.depth_eq, h.depth_eq]

/-- So are members. -/
theorem ReorderedMembers.depth_eq :
    ∀ {l m : List (String × Value)}, ReorderedMembers l m → depthMembers l = depthMembers m
  | _, _, .nil => rfl
  | _, _, .cons _ hv h => by rw [depthMembers, depthMembers, hv.depth_eq, h.depth_eq]
  | _, _, .swap x y l => by simp only [depthMembers, Nat.max_left_comm]
  | _, _, .trans h h' => h.depth_eq.trans h'.depth_eq

end

theorem names_cons (m : String × Value) (l : List (String × Value)) :
    names (m :: l) = m.1 :: names l := rfl

end Value

namespace Document

theorem ofMembers_eq_map (l : List (String × Value)) :
    ofMembers l = l.map fun m => (some m.1, ofValue m.2) := by
  induction l with
  | nil => rfl
  | cons m l ih => rw [ofMembers, ih, List.map_cons]

mutual

/-- A value is JSON to its end. -/
theorem intact_ofValue : ∀ v : Value, (ofValue v).intact = true
  | .array items => by rw [ofValue, intact, intactItems_ofItems items, Bool.and_true]
  | .object members => by rw [ofValue, intact, intactMembers_ofMembers members, Bool.and_true]
  | .null | .bool _ | .number _ | .string _ => rfl

/-- So are the values of a list. -/
theorem intactItems_ofItems : ∀ l : List Value, intactItems (ofItems l) = true
  | [] => rfl
  | v :: l => by rw [ofItems, intactItems, intact_ofValue v, intactItems_ofItems l, Bool.and_true]

/-- So are the values of members. -/
theorem intactMembers_ofMembers :
    ∀ l : List (String × Value), intactMembers (ofMembers l) = true
  | [] => rfl
  | (_, v) :: l => by
    rw [ofMembers, intactMembers, intact_ofValue v, intactMembers_ofMembers l, Bool.and_true]

end

end Document

namespace Decoder

/-- So many further levels may be entered. -/
def allows : Option Nat → Nat → Bool
  | none, _ => true
  | some levels, depth => depth ≤ levels

theorem allows_max (levels : Option Nat) (m n : Nat) :
    allows levels (max m n) = (allows levels m && allows levels n) := by
  cases levels with
  | none => rfl
  | some levels => simp [allows]

/-- What is read inside a list or an object is read if one more level may be entered. -/
theorem toOption_enter_bind {α : Type} (levels : Option Nat) (depth : Nat) (a : α) :
    ((enter levels).toOption.bind fun inner => if allows inner depth then some a else none) =
      if allows levels (depth + 1) then some a else none := by
  cases levels with
  | none => rfl
  | some levels =>
    cases levels with
    | zero => rfl
    | succ levels => simp [enter, Except.toOption, allows]

mutual

/-- A value that is at hand is read with its members sorted, unless it nests too deeply. -/
theorem toOption_value : ∀ (v : Value) (levels : Option Nat), v.Proper →
    (value levels (Document.ofValue v)).toOption =
      if allows levels v.depth then some v.sorted else none
  | .array items, levels, hv => by
    have hitems := fun inner => toOption_values items inner hv
    rw [Value.depth, ← toOption_enter_bind, Document.ofValue, value, toOption_bind]
    congr 1
    funext inner
    rw [toOption_bind, hitems, Value.sorted]
    split <;> rfl
  | .object members, levels, hv => by
    have hmembers := fun inner => toOption_namedValues members inner hv.2
    have hsorted : Value.ofMembers (members.map fun m => (m.1, m.2.sorted)) =
        .object (Value.sortedMembers members) := by
      have hnames : ((members.map fun m => (m.1, m.2.sorted)).map (·.1)).Nodup := by
        simpa [Function.comp_def] using hv.1
      rw [Value.ofMembers, Value.eq_of_perm_of_keysAscend (Dictionary.keysAscend _)
        (Value.keysAscend_sortedMembers members)
        ((Dictionary.ofList_perm hnames).trans (Value.sortedMembers_perm hv.1).symm)]
    rw [Value.depth, ← toOption_enter_bind, Document.ofValue, value, toOption_bind]
    congr 1
    funext inner
    rw [toOption_bind, hmembers, Value.sorted, ← hsorted]
    split <;> rfl
  | .null, none, _ => rfl
  | .null, some _, _ => rfl
  | .bool _, none, _ => rfl
  | .bool _, some _, _ => rfl
  | .number _, none, _ => rfl
  | .number _, some _, _ => rfl
  | .string _, none, _ => rfl
  | .string _, some _, _ => rfl

/-- So are the values of a list. -/
theorem toOption_values : ∀ (l : List Value) (levels : Option Nat), Value.ProperItems l →
    (values levels (Document.ofItems l)).toOption =
      if allows levels (Value.depthItems l) then some (Value.sortedItems l) else none
  | [], none, _ => rfl
  | [], some _, _ => rfl
  | v :: l, levels, hl => by
    rw [Document.ofItems, values, toOption_bind, toOption_value v levels hl.1, Value.depthItems,
      allows_max, Value.sortedItems]
    simp only [toOption_bind, toOption_values l levels hl.2]
    cases allows levels v.depth <;> cases allows levels (Value.depthItems l) <;> rfl

/-- So are the values of members, which stay in their order. -/
theorem toOption_namedValues : ∀ (l : List (String × Value)) (levels : Option Nat),
    Value.ProperMembers l →
    (namedValues levels (Document.ofMembers l)).toOption =
      if allows levels (Value.depthMembers l) then some (l.map fun m => (m.1, m.2.sorted)) else none
  | [], none, _ => rfl
  | [], some _, _ => rfl
  | (name, v) :: l, levels, hl => by
    rw [Document.ofMembers, namedValues, toOption_bind, toOption_value v levels hl.1,
      Value.depthMembers, allows_max, List.map_cons]
    simp only [toOption_bind, toOption_namedValues l levels hl.2]
    cases allows levels v.depth <;> cases allows levels (Value.depthMembers l) <;> rfl

end

/-! ## Decoders that do not depend on the order of members -/

variable {α β σ : Type}

/-- The same is read from values that differ in the order of members, or nothing from either. -/
def OrderFree (decode : Decoder α) : Prop :=
  ∀ (levels : Option Nat) {v w : Value}, v.Proper → v.Reordered w →
    (decode levels (Document.ofValue v)).toOption = (decode levels (Document.ofValue w)).toOption

/-- It is enough to look at lists and at objects, since other values have no members. -/
theorem OrderFree.of_parts {decode : Decoder α}
    (harray : ∀ (levels : Option Nat) {l m : List Value}, Value.ProperItems l →
      Value.ReorderedItems l m → (decode levels (.array (Document.ofItems l) true)).toOption =
        (decode levels (.array (Document.ofItems m) true)).toOption)
    (hobject : ∀ (levels : Option Nat) {l m : List (String × Value)}, (Value.names l).Nodup →
      Value.ProperMembers l → Value.ReorderedMembers l m →
      (decode levels (.object (Document.ofMembers l) true)).toOption =
        (decode levels (.object (Document.ofMembers m) true)).toOption) :
    OrderFree decode := by
  intro levels v w hv h
  cases h with
  | refl => rfl
  | array h => exact harray levels hv h
  | object h => exact hobject levels hv.1 hv.2 h

theorem orderFree_string : OrderFree string :=
  .of_parts (fun _ _ _ _ _ => rfl) (fun _ _ _ _ _ _ => rfl)

theorem orderFree_int64 : OrderFree int64 :=
  .of_parts (fun _ _ _ _ _ => rfl) (fun _ _ _ _ _ _ => rfl)

theorem orderFree_value : OrderFree value := by
  intro levels v w hv h
  obtain ⟨hw, hsorted⟩ := h.sorted_eq hv
  rw [toOption_value v levels hv, toOption_value w levels hw, h.depth_eq, hsorted]

namespace OrderFree

/-- What is made of what was read does not depend on the order of members either. -/
theorem bind {decode : Decoder α} (h : OrderFree decode) (f : α → Except Flaw β) :
    OrderFree fun levels d => decode levels d >>= f := by
  intro levels v w hv hvw
  simp only [toOption_bind, h levels hv hvw]

theorem map {decode : Decoder α} (h : OrderFree decode) (f : α → β) :
    OrderFree fun levels d => f <$> decode levels d := by
  intro levels v w hv hvw
  simp only [toOption_map, h levels hv hvw]

theorem optional {decode : Decoder α} (h : OrderFree decode) : OrderFree (optional decode) :=
  .of_parts (fun levels _ _ hl hlm => h.map some levels (v := .array _) hl (.array hlm))
    (fun levels _ _ hnames hl hlm =>
      h.map some levels (v := .object _) ⟨hnames, hl⟩ (.object hlm))

/-- The items of lists are read alike. -/
theorem mapM_items {decode : Decoder α} (h : OrderFree decode) (levels : Option Nat) :
    ∀ {l m : List Value}, Value.ProperItems l → Value.ReorderedItems l m →
      ((Document.ofItems l).mapM (decode levels)).toOption =
        ((Document.ofItems m).mapM (decode levels)).toOption
  | _, _, _, .nil => rfl
  | _, _, hl, .cons hv hlm => by
    simp only [Document.ofItems, List.mapM_cons, toOption_bind, h levels hl.1 hv,
      mapM_items h levels hl.2 hlm]

theorem list {decode : Decoder α} (h : OrderFree decode) : OrderFree (list decode) := by
  refine .of_parts (fun levels l m hl hlm => ?_) (fun _ _ _ _ _ _ => rfl)
  simp only [Decoder.list, toOption_bind, h.mapM_items _ hl hlm]

end OrderFree

/-! ## Members -/

/-- The entries are what the members are read as, under the same names. -/
def Entries (decode : String → Decoder α) (levels : Option Nat) (l : List (String × Value))
    (entries : List (String × α)) : Prop :=
  List.Forall₂ (fun m entry => entry.1 = m.1 ∧
    decode m.1 levels (Document.ofValue m.2) = .ok entry.2) l entries

namespace Entries

variable {decode : String → Decoder α} {levels : Option Nat} {l : List (String × Value)}
  {entries : List (String × α)}

theorem names_eq (h : Entries decode levels l entries) :
    entries.map (·.1) = Value.names l := by
  induction h with
  | nil => rfl
  | cons hentry _ ih => rw [List.map_cons, hentry.1, ih, Value.names_cons]

/-- Each entry was read from a member of its name. -/
theorem exists_read (h : Entries decode levels l entries) {entry : String × α}
    (hentry : entry ∈ entries) : ∃ d, decode entry.1 levels d = .ok entry.2 := by
  induction h with
  | nil => cases hentry
  | cons hfirst _ ih =>
    rcases List.mem_cons.mp hentry with rfl | hrest
    · exact ⟨_, hfirst.1 ▸ hfirst.2⟩
    · exact ih hrest

/-- From reordered members the same entries are read in another order. -/
theorem exists_perm (hdecode : ∀ name, OrderFree (decode name)) :
    ∀ {l m : List (String × Value)} {entries : List (String × α)},
      Value.ReorderedMembers l m → (Value.names l).Nodup → Value.ProperMembers l →
      Entries decode levels l entries →
      ∃ entries', Entries decode levels m entries' ∧ entries.Perm entries'
  | _, _, _, .nil, _, _, hread => ⟨_, hread, .refl _⟩
  | _, _, _, .cons name hv hlm, hnames, hl, .cons hentry hread => by
    obtain ⟨entries', hread', hperm⟩ :=
      exists_perm hdecode hlm (List.nodup_cons.mp hnames).2 hl.2 hread
    have hvalue := hdecode name levels hl.1 hv
    rw [hentry.2] at hvalue
    exact ⟨_, .cons ⟨hentry.1, toOption_eq_some.mp hvalue.symm⟩ hread', hperm.cons _⟩
  | _, _, _, .swap x y l, _, _, .cons hx (.cons hy hread) =>
    ⟨_, .cons hy (.cons hx hread), .swap _ _ _⟩
  | _, _, _, .trans hlm hmn, hnames, hl, hread => by
    -- The members in between have the same names, so the second half applies to them.
    obtain ⟨hperm, hm, -⟩ := hlm.sorted_eq hnames hl
    obtain ⟨entries', hread', hperm'⟩ := exists_perm hdecode hlm hnames hl hread
    obtain ⟨entries'', hread'', hperm''⟩ :=
      exists_perm hdecode hmn (hperm.nodup_iff.mp hnames) hm hread'
    exact ⟨entries'', hread'', hperm'.trans hperm''⟩

end Entries

/-- Objects are read the same whatever the order of their members, if whatever is read from one
order is also read from the others. -/
theorem toOption_object_eq {decode : Decoder α}
    (h : ∀ (levels : Option Nat) {l m : List (String × Value)}, (Value.names l).Nodup →
      Value.ProperMembers l → Value.ReorderedMembers l m → ∀ a,
      decode levels (.object (Document.ofMembers l) true) = .ok a →
      decode levels (.object (Document.ofMembers m) true) = .ok a)
    (levels : Option Nat) {l m : List (String × Value)} (hnames : (Value.names l).Nodup)
    (hl : Value.ProperMembers l) (hlm : Value.ReorderedMembers l m) :
    (decode levels (.object (Document.ofMembers l) true)).toOption =
      (decode levels (.object (Document.ofMembers m) true)).toOption := by
  obtain ⟨hperm, hm, -⟩ := hlm.sorted_eq hnames hl
  refine Option.ext fun a => ?_
  rw [toOption_eq_some, toOption_eq_some]
  -- The other direction is the same for the members put back in their order.
  exact ⟨h levels hnames hl hlm a, h levels (hperm.nodup_iff.mp hnames) hm hlm.symm a⟩

/-! ## Dictionaries -/

/-- A dictionary is read by reading the value of each member. -/
theorem dictionary_eq_ok {decode : Decoder α} {levels : Option Nat} {l : List (String × Value)}
    {d : Dictionary α} :
    dictionary decode levels (.object (Document.ofMembers l) true) = .ok d ↔
      ∃ inner, enter levels = .ok inner ∧
        ∃ entries, Entries (fun _ => decode) inner l entries ∧ Dictionary.ofList entries = d := by
  rw [dictionary, bind_eq_ok]
  refine exists_congr fun inner => and_congr_right fun _ => ?_
  rw [bind_eq_ok]
  refine exists_congr fun entries => ?_
  rw [mapM_eq_ok, Document.ofMembers_eq_map, List.forall₂_map_left_iff]
  refine and_congr ⟨.imp fun m entry h => ?_, .imp fun m entry h => ?_⟩ pure_eq_ok
  · obtain ⟨a, ha, h⟩ := bind_eq_ok.mp h
    obtain rfl := pure_eq_ok.mp h
    exact ⟨rfl, ha⟩
  · exact bind_eq_ok.mpr ⟨entry.2, h.2, pure_eq_ok.mpr (Prod.ext h.1.symm rfl)⟩

theorem OrderFree.dictionary {decode : Decoder α} (h : OrderFree decode) :
    OrderFree (dictionary decode) := by
  refine .of_parts (fun _ _ _ _ _ => rfl) (toOption_object_eq ?_)
  intro levels l m hnames hl hlm d hd
  obtain ⟨inner, hinner, entries, hread, rfl⟩ := dictionary_eq_ok.mp hd
  obtain ⟨entries', hread', hperm⟩ := Entries.exists_perm (fun _ => h) hlm hnames hl hread
  exact dictionary_eq_ok.mpr ⟨inner, hinner, entries', hread',
    (Dictionary.ofList_eq_of_perm hperm (hread.names_eq ▸ hnames)).symm⟩

/-! ## Records -/

/-- It does not matter which of the two parts is changed first. -/
def Field.Commutes (f g : Field σ) : Prop :=
  ∀ (levels : Option Nat) (d d' : Document) (change change' : σ → σ),
    f.read levels d = .ok change → g.read levels d' = .ok change' →
    Function.Commute change change'

instance : Std.Symm (@Field.Commutes σ) where
  symm _ _ h levels d d' change change' hchange hchange' :=
    (h levels d' d change' change hchange' hchange).symm

/-- A part of a record that is read by a decoder and then set. -/
def Field.setting (name : String) (required : Bool) (decode : Decoder α) (set : α → σ → σ) :
    Field σ :=
  ⟨name, required, fun levels d => do return set (← decode levels d)⟩

/-- Two parts commute if setting them does. -/
theorem Field.commutes_setting {name name' : String} {required required' : Bool}
    {decode : Decoder α} {decode' : Decoder β} {set : α → σ → σ} {set' : β → σ → σ}
    (h : ∀ a b, Function.Commute (set a) (set' b)) :
    (setting name required decode set).Commutes (setting name' required' decode' set') := by
  intro levels d d' change change' hchange hchange'
  obtain ⟨a, -, hchange⟩ := bind_eq_ok.mp hchange
  obtain ⟨b, -, hchange'⟩ := bind_eq_ok.mp hchange'
  rw [← pure_eq_ok.mp hchange, ← pure_eq_ok.mp hchange']
  exact h a b

/-- Reads the change that a member of a name makes to a record; an unknown one makes none. -/
def changeOf (fields : List (Field σ)) (name : String) : Decoder (σ → σ) :=
  match fields.find? fun f => f.name = name with
  | none => fun _ _ => .ok id
  | some f => f.read

section Members

variable {fields : List (Field σ)} {levels : Option Nat}

theorem changeOf_of_none {name : String} (h : (fields.find? fun f => f.name = name) = none) :
    changeOf fields name = fun _ _ => .ok id := by
  rw [changeOf, h]

theorem changeOf_of_some {name : String} {f : Field σ}
    (h : (fields.find? fun f => f.name = name) = some f) : changeOf fields name = f.read := by
  rw [changeOf, h]

theorem orderFree_changeOf (hfields : ∀ f ∈ fields, OrderFree f.read) (name : String) :
    OrderFree (changeOf fields name) := by
  cases hf : fields.find? fun f => f.name = name with
  | none =>
    rw [changeOf_of_none hf]
    exact fun _ _ _ _ _ => rfl
  | some f =>
    rw [changeOf_of_some hf]
    exact hfields f (List.mem_of_find?_eq_some hf)

/-- Changes read under different names commute. -/
theorem commute_of_changeOf (hcommute : fields.Pairwise Field.Commutes) {x y : String × (σ → σ)}
    {d d' : Document} (hne : x.1 ≠ y.1) (hx : changeOf fields x.1 levels d = .ok x.2)
    (hy : changeOf fields y.1 levels d' = .ok y.2) : Function.Commute x.2 y.2 := by
  cases hf : fields.find? fun f => f.name = x.1 with
  | none =>
    rw [changeOf_of_none hf] at hx
    rw [← Except.ok.inj hx]
    exact Function.Commute.id_left
  | some f =>
    cases hg : fields.find? fun f => f.name = y.1 with
    | none =>
      rw [changeOf_of_none hg] at hy
      rw [← Except.ok.inj hy]
      exact Function.Commute.id_right
    | some g =>
      rw [changeOf_of_some hf] at hx
      rw [changeOf_of_some hg] at hy
      have hf' : f.name = x.1 := by simpa using List.find?_some hf
      have hg' : g.name = y.1 := by simpa using List.find?_some hg
      have hfg : f ≠ g := by
        rintro rfl
        exact hne (hf'.symm.trans hg')
      exact hcommute.forall (List.mem_of_find?_eq_some hf) (List.mem_of_find?_eq_some hg) hfg
        levels d d' _ _ hx hy

/-- What members make of a record is what the later ones make of it after the first. -/
theorem exists_changes_cons {name : String} {v : Value} {l : List (String × Value)}
    {initial a : σ} :
    (∃ changes, Entries (changeOf fields) levels ((name, v) :: l) changes ∧
      changes.foldl (fun a change => change.2 a) initial = a) ↔
    ∃ change, changeOf fields name levels (Document.ofValue v) = .ok change ∧
      ∃ changes, Entries (changeOf fields) levels l changes ∧
        changes.foldl (fun a change => change.2 a) (change initial) = a := by
  constructor
  · rintro ⟨_, _ | ⟨hfirst, hrest⟩, ha⟩
    exact ⟨_, hfirst.2, _, hrest, ha⟩
  · rintro ⟨change, hfirst, changes, hrest, ha⟩
    exact ⟨(name, change) :: changes, .cons ⟨rfl, hfirst⟩ hrest, ha⟩

/-- Members change a record one after the other, and all required ones have to be there. -/
theorem members_eq_ok {l : List (String × Value)} {seen : List String} {initial a : σ}
    (hnames : (Value.names l).Nodup) (hseen : ∀ name ∈ Value.names l, name ∉ seen) :
    members fields levels true seen initial (Document.ofMembers l) = .ok a ↔
      (∀ f ∈ fields, f.required → f.name ∈ seen ∨ f.name ∈ Value.names l) ∧
        ∃ changes, Entries (changeOf fields) levels l changes ∧
          changes.foldl (fun a change => change.2 a) initial = a := by
  -- The names seen and the names to come stay apart, so that no member is refused as a second one.
  induction l generalizing seen initial with
  | nil =>
    have hall : (fields.all fun f => !f.required || seen.contains f.name) = true ↔
        ∀ f ∈ fields, f.required → f.name ∈ seen ∨ f.name ∈ Value.names [] := by
      simp [Value.names, imp_iff_not_or]
    rw [← hall, Document.ofMembers, members, if_neg (by simp)]
    constructor
    · intro h
      split at h
      · rename_i hpresent
        exact ⟨hpresent, [], .nil, Except.ok.inj h⟩
      · cases h
    · rintro ⟨hpresent, _, ⟨⟩, rfl⟩
      rw [if_pos hpresent]
      rfl
  | cons m l ih =>
    obtain ⟨name, v⟩ := m
    rw [Value.names_cons] at hnames hseen
    obtain ⟨hname, hnames⟩ := List.nodup_cons.mp hnames
    obtain ⟨hnew, hseen⟩ := List.forall_mem_cons.mp hseen
    rw [exists_changes_cons, Document.ofMembers, members]
    cases hf : fields.find? fun f => f.name = name with
    | none =>
      have hunknown : ∀ f ∈ fields, f.name ≠ name := by simpa using hf
      simp only [Document.intact_ofValue, if_true, changeOf_of_none hf, Except.ok.injEq,
        exists_eq_left', id_eq]
      rw [ih hnames hseen]
      refine and_congr_left' (forall₂_congr fun f hf => ?_)
      rw [Value.names_cons, List.mem_cons, or_iff_right (hunknown f hf)]
    | some f =>
      have hrest : ∀ other ∈ Value.names l, other ∉ name :: seen := fun other hother =>
        List.not_mem_cons_of_ne_of_not_mem (fun h => hname (h ▸ hother)) (hseen other hother)
      have hpresent : ∀ g : Field σ, g.name ∈ name :: seen ∨ g.name ∈ Value.names l ↔
          g.name ∈ seen ∨ g.name ∈ Value.names ((name, v) :: l) := by
        intro g
        rw [Value.names_cons, List.mem_cons, List.mem_cons, or_assoc, or_left_comm]
      simp only [changeOf_of_some hf, List.contains_iff_mem, if_neg hnew, bind_eq_ok,
        ih hnames hrest, hpresent]
      exact (exists_congr fun change => and_left_comm).trans exists_and_left

/-- Changes that were read from the members of an object may be made in any order. -/
theorem foldl_changes_eq (hcommute : fields.Pairwise Field.Commutes)
    {l : List (String × Value)} (hnames : (Value.names l).Nodup)
    {changes changes' : List (String × (σ → σ))}
    (hread : Entries (changeOf fields) levels l changes) (hperm : changes.Perm changes')
    (initial : σ) :
    changes.foldl (fun a change => change.2 a) initial =
      changes'.foldl (fun a change => change.2 a) initial := by
  have hnodup : (changes.map (·.1)).Nodup := hread.names_eq ▸ hnames
  refine hperm.foldl_eq' (fun x hx y hy a => ?_) initial
  by_cases hxy : x = y
  · rw [hxy]
  · have hne : x.1 ≠ y.1 := fun h => hxy (List.inj_on_of_nodup_map hnodup hx hy h)
    obtain ⟨d, hx⟩ := hread.exists_read hx
    obtain ⟨d', hy⟩ := hread.exists_read hy
    exact (commute_of_changeOf hcommute hne hx hy).symm a

/-- The items of lists are read alike into the parts of a record. -/
theorem positions_eq (hfields : ∀ f ∈ fields, OrderFree f.read) (initial : σ) {l m : List Value}
    (hl : Value.ProperItems l) (hlm : Value.ReorderedItems l m) :
    (positions levels true initial fields (Document.ofItems l)).toOption =
      (positions levels true initial fields (Document.ofItems m)).toOption := by
  induction fields generalizing initial l m with
  | nil =>
    cases hlm with
    | nil => rfl
    | cons _ _ => rfl
  | cons f fields ih =>
    obtain ⟨hf, hfields⟩ := List.forall_mem_cons.mp hfields
    cases hlm with
    | nil => rfl
    | cons hv hlm =>
      simp only [Document.ofItems, positions, toOption_bind, hf levels hl.1 hv,
        ih hfields _ hl.2 hlm]

end Members

/-- A record is read the same in every order of its members, if changes of its parts commute. -/
theorem OrderFree.record {fields : List (Field σ)} (hfields : ∀ f ∈ fields, OrderFree f.read)
    (hcommute : fields.Pairwise Field.Commutes) (initial : σ) :
    OrderFree (record fields initial) := by
  refine .of_parts (fun levels l m hl hlm => ?_) (toOption_object_eq ?_)
  · simp only [Decoder.record, toOption_bind, positions_eq hfields initial hl hlm]
  · intro levels l m hnames hl hlm a ha
    obtain ⟨inner, hinner, ha⟩ := bind_eq_ok.mp ha
    obtain ⟨hpresent, changes, hread, rfl⟩ := (members_eq_ok hnames (by simp)).mp ha
    obtain ⟨hperm, -, -⟩ := hlm.sorted_eq hnames hl
    obtain ⟨changes', hread', hchanges⟩ :=
      Entries.exists_perm (orderFree_changeOf hfields) hlm hnames hl hread
    refine bind_eq_ok.mpr ⟨inner, hinner, (members_eq_ok (hperm.nodup_iff.mp hnames)
      (by simp)).mpr ⟨fun f hf hrequired => ?_, changes', hread', ?_⟩⟩
    · exact (hpresent f hf hrequired).imp_right hperm.mem_iff.mp
    · exact (foldl_changes_eq hcommute hnames hread hchanges initial).symm

end Decoder

end Json

/-! ## Requests -/

open Json (Value Decoder)

theorem Date.orderFree_decoder : Decoder.OrderFree Date.decoder :=
  Decoder.orderFree_string.bind _

theorem DateRange.orderFree_decoder : Decoder.OrderFree DateRange.decoder := by
  refine .record ?_ ?_ _
  · rw [List.forall_mem_cons, List.forall_mem_singleton]
    have hday := Date.orderFree_decoder.optional
    exact ⟨hday.bind _, hday.bind _⟩
  · rw [List.pairwise_pair]
    exact Decoder.Field.commutes_setting fun _ _ _ => rfl

theorem OrderInput.orderFree_decoder : Decoder.OrderFree OrderInput.decoder := by
  refine .record ?_ ?_ _
  · rw [List.forall_mem_cons, List.forall_mem_singleton]
    exact ⟨Decoder.orderFree_string.bind _, Decoder.orderFree_string.optional.bind _⟩
  · rw [List.pairwise_pair]
    exact Decoder.Field.commutes_setting fun _ _ _ => rfl

theorem FilterInput.orderFree_decoder : Decoder.OrderFree FilterInput.decoder :=
  Decoder.orderFree_value.map _

theorem QueryRequest.orderFree_decoder : Decoder.OrderFree QueryRequest.decoder := by
  refine .record ?_ ?_ _
  · simp only [fields, List.forall_mem_cons]
    have htokens := Decoder.orderFree_string.list
    have hfilters := FilterInput.orderFree_decoder.dictionary
    have horder := OrderInput.orderFree_decoder.list.optional
    have hcount := Decoder.orderFree_int64.optional
    exact ⟨htokens.bind _, htokens.bind _, hfilters.bind _,
      DateRange.orderFree_decoder.optional.bind _, horder.bind _, hcount.bind _, hcount.bind _,
      nofun⟩
  · simp only [fields, List.pairwise_cons, List.forall_mem_cons, List.not_mem_nil, false_implies,
      implies_true, List.Pairwise.nil, and_true]
    and_intros <;> exact Decoder.Field.commutes_setting fun _ _ _ => rfl

namespace Engine

variable {σ : Type} (e : Engine σ)

/-- The order of members decides nothing, at whatever depth they stand. A request is read from both
of two values or from neither, be they at hand or in a text that may nest to a limited depth. Then
its checks find the same fault, or it has the same canonical form and the same statement and looks
the same up, so that its result has the same key. -/
theorem lookup_reordered {v w : Value} (hv : v.Proper) (h : v.Reordered w) (levels : Option Nat) :
    ((∃ r, QueryRequest.decoder levels (.ofValue v) = .ok r) ↔
      ∃ r, QueryRequest.decoder levels (.ofValue w) = .ok r) ∧
    ∀ r s, QueryRequest.decoder levels (.ofValue v) = .ok r →
      QueryRequest.decoder levels (.ofValue w) = .ok s →
      r = s ∧ e.canonical r = e.canonical s ∧ e.prepare r = e.prepare s ∧
        e.lookup (.query r) = e.lookup (.query s) := by
  have hread := QueryRequest.orderFree_decoder levels hv h
  refine ⟨?_, fun r s hr hs => ?_⟩
  · simp only [← toOption_eq_some, hread]
  · rw [hr, hs] at hread
    obtain rfl : r = s := Option.some.inj hread
    exact ⟨rfl, rfl, rfl, rfl⟩

end Engine

/-- Asks for the revenue of some sales in January, the greatest first. -/
def januaryRevenue : Value :=
  .object [("metrics", .strings ["faturamento"]),
    ("filters", .object [("canal_venda", .string "iFood"),
      ("total_amount", .object [("gte", .int 10), ("lt", .int 100)])]),
    ("date_range", .object [("start_date", .string "2025-01-01"),
      ("end_date", .string "2025-01-31")]),
    ("order_by", .array [.object [("field", .string "faturamento"),
      ("direction", .string "desc")]])]

/-- Asks for the same, with the members of each object the other way round. -/
def januaryRevenueReversed : Value :=
  .object [("order_by", .array [.object [("direction", .string "desc"),
      ("field", .string "faturamento")]]),
    ("date_range", .object [("end_date", .string "2025-01-31"),
      ("start_date", .string "2025-01-01")]),
    ("filters", .object [("total_amount", .object [("lt", .int 100), ("gte", .int 10)]),
      ("canal_venda", .string "iFood")]),
    ("metrics", .strings ["faturamento"])]

/-- Turning round the members of the request itself, its filters, a map of operators, its range of
days and its order leaves what it looks up as it is. -/
theorem Engine.lookup_reordered_january :
    januaryRevenue.Proper ∧ januaryRevenue.Reordered januaryRevenueReversed ∧
      ∃ r p, QueryRequest.decoder none (.ofValue januaryRevenue) = .ok r ∧
        QueryRequest.decoder none (.ofValue januaryRevenueReversed) = .ok r ∧
        restaurantEngine.lookup (.query r) = .ok p := by
  have hproper : januaryRevenue.Proper := by
    simp [januaryRevenue, Value.Proper, Value.ProperMembers, Value.ProperItems, Value.strings,
      Value.int, Json.Number.IsFinite]
  have hreordered : januaryRevenue.Reordered januaryRevenueReversed :=
    .object (.trans (.cons _ (.refl _) (.cons _ (.object (.trans
      (.cons _ (.refl _) (.cons _ (.object (.swap _ _ _)) .nil)) (.swap _ _ _)))
        (.cons _ (.object (.swap _ _ _)) (.cons _ (.array (.cons (.object (.swap _ _ _)) .nil))
          .nil)))) (.of_perm (List.reverse_perm _).symm))
  obtain ⟨hiff, heq⟩ := Engine.lookup_reordered restaurantEngine hproper hreordered none
  have hok : ((QueryRequest.decoder none (.ofValue januaryRevenue)).toOption.bind fun r =>
      (restaurantEngine.lookup (.query r)).toOption).isSome := by decide +kernel
  obtain ⟨p, hp⟩ := Option.isSome_iff_exists.mp hok
  obtain ⟨r, hr, hp⟩ := Option.bind_eq_some_iff.mp hp
  rw [toOption_eq_some] at hr hp
  obtain ⟨s, hs⟩ := hiff.mp ⟨r, hr⟩
  obtain ⟨rfl, -⟩ := heq r s hr hs
  exact ⟨hproper, hreordered, r, p, hr, hs, hp⟩

end SalesQuery
