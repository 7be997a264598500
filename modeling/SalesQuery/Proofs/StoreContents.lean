import SalesQuery.Cache.ResultCache

/-!
# What a store holds

What a caller can tell of a store is the text that it finds under each key, now and later
(`Store.text?`). This module says what every operation of the store, and every use that the result
cache makes of it, does to these texts. Entries that have expired are dropped by some operations and
kept by others; no later lookup finds them in either case.
-/

namespace SalesQuery

open Json (Value)

/-! ## Dictionaries -/

namespace Dictionary

variable {α : Type}

/-- Placing an entry changes what is found under its key only. -/
theorem find?_insertEntry (key : String) (a : α) (l : List (String × α)) (k : String) :
    ((insertEntry key a l).find? fun entry => entry.1 = k) =
      if key = k then some (key, a) else l.find? fun entry => entry.1 = k := by
  induction l with
  | nil => grind [insertEntry]
  | cons entry l ih =>
    obtain ⟨name, b⟩ := entry
    rw [insertEntry]
    split
    · grind
    · split
      · grind
      · grind

/-- Among entries with different keys, a condition drops what is found or leaves it. -/
theorem find?_filter_of_keysAscend {l : List (String × α)} (hl : KeysAscend l)
    (p : String × α → Bool) (k : String) :
    ((l.filter p).find? fun entry => entry.1 = k) =
      (l.find? fun entry => entry.1 = k).filter p := by
  induction l with
  | nil => rfl
  | cons entry l ih =>
    obtain ⟨hfirst, hrest⟩ := List.pairwise_cons.mp hl
    by_cases hk : entry.1 = k
    · -- No later entry has the key.
      have hnone : (l.filter p).find? (fun entry => entry.1 = k) = none := by
        rw [ih hrest, List.find?_eq_none.mpr, Option.filter_none]
        intro later hlater
        have hlt : k < later.1 := hk ▸ hfirst later hlater
        have hne : later.1 ≠ k := fun heq => String.lt_irrefl k (heq ▸ hlt)
        simpa using hne
      cases hp : p entry with
      | true => simp [hp, hk, Option.filter_some]
      | false =>
        rw [List.filter_cons_of_neg (by simp [hp]), hnone]
        simp [hk, hp, Option.filter_some]
    · have hskip : (entry :: l).find? (fun entry => entry.1 = k) =
          l.find? fun entry => entry.1 = k := List.find?_cons_of_neg (by simpa using hk)
      rw [hskip, ← ih hrest]
      cases hp : p entry with
      | true => rw [List.filter_cons_of_pos hp, List.find?_cons_of_neg (by simpa using hk)]
      | false => rw [List.filter_cons_of_neg (by simp [hp])]

/-- Whatever is placed under a key, its entry stands between the same others. -/
theorem exists_insertEntry_eq (key : String) (l : List (String × α)) :
    ∃ before after, ∀ a, insertEntry key a l = before ++ (key, a) :: after := by
  induction l with
  | nil => exact ⟨[], [], fun _ => rfl⟩
  | cons entry l ih =>
    obtain ⟨name, b⟩ := entry
    simp only [insertEntry]
    split
    · exact ⟨[], (name, b) :: l, fun _ => rfl⟩
    · split
      · exact ⟨[], l, fun _ => rfl⟩
      · obtain ⟨before, after, h⟩ := ih
        exact ⟨(name, b) :: before, after, fun a => by rw [h a, List.cons_append]⟩

/-- Mapping a key changes the value of that key only. -/
theorem get?_insert (d : Dictionary α) (key : String) (a : α) (k : String) :
    (d.insert key a).get? k = if key = k then some a else d.get? k := by
  rw [get?, insert, find?_insertEntry]
  split
  · rfl
  · rfl

/-- Removing a key removes the value of that key only. -/
theorem get?_erase (d : Dictionary α) (key k : String) :
    (d.erase key).get? k = if key = k then none else d.get? k := by
  rw [get?, erase, find?_filter_of_keysAscend d.keysAscend, get?]
  cases hfound : d.entries.find? fun entry => entry.1 = k with
  | none => simp
  | some entry =>
    obtain rfl : entry.1 = k := by simpa using List.find?_some hfound
    by_cases hkey : key = entry.1
    · simp [hkey, Option.filter_some]
    · simp [hkey, Ne.symm hkey, Option.filter_some]

end Dictionary

/-! ## Stores -/

namespace Store

/-- The text that is found under a key at a time. -/
def text? (s : Store) (now : Nat) (key : String) : Option String := (s.get now key).1

/-- What is under a key among the entries that satisfy a condition. -/
theorem get?_keep (s : Store) (p : String × StoredText → Bool) (k : String) :
    (s.keep p).entries.get? k = (s.entries.get? k).filter fun stored => p (k, stored) := by
  rw [Dictionary.get?, keep, Dictionary.find?_filter_of_keysAscend s.entries.keysAscend,
    Dictionary.get?]
  cases hfound : s.entries.entries.find? fun entry => entry.1 = k with
  | none => rfl
  | some entry =>
    obtain rfl : entry.1 = k := by simpa using List.find?_some hfound
    simp only [Option.filter_some, Option.map_some]
    split
    · rfl
    · rfl

/-- A text is found as long as its entry has not expired. -/
theorem text?_eq (s : Store) (now : Nat) (key : String) :
    s.text? now key =
      ((s.entries.get? key).filter fun stored => now < stored.expires).map (·.text) := by
  rw [text?, get]
  split
  · rename_i hnone
    rw [hnone]
    rfl
  · rename_i stored hsome
    rw [hsome]
    split
    · rename_i hlt
      simp [hlt, Option.filter_some]
    · rename_i hlt
      simp [hlt, Option.filter_some]

theorem text?_eq_some {s : Store} {now : Nat} {key text : String} :
    s.text? now key = some text ↔
      ∃ expires, s.entries.get? key = some ⟨text, expires⟩ ∧ now < expires := by
  rw [text?_eq, Option.map_eq_some_iff]
  constructor
  · rintro ⟨stored, hstored, rfl⟩
    obtain ⟨hget, hlt⟩ := Option.filter_eq_some_iff.mp hstored
    exact ⟨stored.expires, hget, by simpa using hlt⟩
  · rintro ⟨expires, hget, hlt⟩
    exact ⟨⟨text, expires⟩, Option.filter_eq_some_iff.mpr ⟨hget, by simpa using hlt⟩, rfl⟩

variable {now t : Nat}

/-- What is under a key once the entries that have expired are gone. -/
theorem get?_purge (now : Nat) (s : Store) (k : String) :
    (s.purge now).entries.get? k =
      (s.entries.get? k).filter fun stored => now < stored.expires :=
  get?_keep ..

/-- Dropping what has expired drops nothing that is alive later. -/
theorem filter_get?_purge (h : now ≤ t) (s : Store) (k : String) :
    (((s.purge now).entries.get? k).filter fun stored => t < stored.expires) =
      (s.entries.get? k).filter fun stored => t < stored.expires := by
  rw [get?_purge, Option.filter_filter]
  congr 1
  funext stored
  by_cases hlt : t < stored.expires
  · have hnow : now < stored.expires := by omega
    simp [hlt, hnow]
  · simp [hlt]

/-- Looking up drops nothing that is alive later. -/
theorem filter_get?_get (h : now ≤ t) (s : Store) (key k : String) :
    (((s.get now key).2.entries.get? k).filter fun stored => t < stored.expires) =
      (s.entries.get? k).filter fun stored => t < stored.expires := by
  rw [get]
  split
  · rfl
  · rename_i stored hsome
    split
    · rfl
    · -- The entry that is removed has expired, so it is not alive at `t`.
      rename_i hexpired
      rw [Dictionary.get?_erase]
      split
      · rename_i hkey
        have hlt : ¬t < stored.expires := by omega
        rw [← hkey, hsome]
        simp [hlt, Option.filter_some]
      · rfl

/-- Dropping what has expired changes no later lookup. -/
theorem text?_purge (h : now ≤ t) (s : Store) (k : String) :
    (s.purge now).text? t k = s.text? t k := by
  rw [text?_eq, text?_eq, filter_get?_purge h]

/-- Looking up changes no later lookup. -/
theorem text?_get (h : now ≤ t) (s : Store) (key k : String) :
    (s.get now key).2.text? t k = s.text? t k := by
  rw [text?_eq, text?_eq, filter_get?_get h]

/-- A lookup that finds its text leaves the store as it is, and so does one of a key without an
entry. -/
theorem get_snd_of_alive {s : Store} {key : String}
    (h : ∀ stored, s.entries.get? key = some stored → now < stored.expires) :
    (s.get now key).2 = s := by
  rw [get]
  split
  · rfl
  · rename_i stored hsome
    rw [if_pos (h stored hsome)]

/-- A text is written if the clock reaches the time at which it expires. -/
theorem set_of_lt {ttl : Nat} (h : now + ttl < clockEnd) (s : Store) (key text : String) :
    s.set now key text ttl =
      (.ok (), ⟨(s.purge now).entries.insert key ⟨text, now + ttl⟩⟩) := by
  rw [set, expiry, if_pos h]

/-- Otherwise the call breaks off, after what has expired is gone. -/
theorem set_of_le {ttl : Nat} (h : clockEnd ≤ now + ttl) (s : Store) (key text : String) :
    s.set now key text ttl = (.error ⟨⟩, s.purge now) := by
  rw [set, expiry, if_neg (Nat.not_lt.mpr h)]

/-- A text that is written is found until its time is over, and no other lookup changes. -/
theorem text?_insert (h : now ≤ t) (s : Store) (key text : String) (expires : Nat) (k : String) :
    Store.text? ⟨(s.purge now).entries.insert key ⟨text, expires⟩⟩ t k =
      if key = k then (if t < expires then some text else none) else s.text? t k := by
  rw [text?_eq, Dictionary.get?_insert]
  split
  · split
    · rename_i hlt
      simp [hlt, Option.filter_some]
    · rename_i hlt
      simp [hlt, Option.filter_some]
  · rw [← text?_eq, text?_purge h]

/-- Nothing is found under a key that was removed, and no other lookup changes. -/
theorem text?_delete (s : Store) (key k : String) :
    (s.delete key).2.text? t k = if key = k then none else s.text? t k := by
  rw [text?_eq, delete, Dictionary.get?_erase]
  split
  · rfl
  · rw [text?_eq]

/-- Nothing is found under the keys that match a pattern that was removed, and no other lookup
changes. -/
theorem text?_deleteMatching (s : Store) (pattern : KeyPattern) (k : String) :
    (s.deleteMatching pattern).2.text? t k =
      if pattern.matchesKey k then none else s.text? t k := by
  rw [text?_eq, deleteMatching, get?_keep]
  split
  · rename_i hmatch
    cases s.entries.get? k with
    | none => rfl
    | some stored => simp [hmatch]
  · rename_i hmatch
    rw [text?_eq]
    cases s.entries.get? k with
    | none => rfl
    | some stored => simp [hmatch]

/-- Measuring a store changes no later lookup. -/
theorem text?_info (h : now ≤ t) (s : Store) (k : String) :
    (s.info now).2.text? t k = s.text? t k := text?_purge h s k

end Store

/-! ## The result cache -/

namespace ResultCache

/-- The text that is found under a key at a time, if there is a store. -/
def text? (cache : ResultCache) (now : Nat) (key : String) : Option String :=
  cache.store.bind fun s => s.text? now key

theorem text?_of_store {cache : ResultCache} {s : Store} (h : cache.store = some s) (now : Nat)
    (key : String) : cache.text? now key = s.text? now key := by
  rw [text?, h]
  rfl

variable {m : Moment} {t : Nat}

/-- A lookup finds what is there, unless it fails. -/
theorem lookUp_fst (m : Moment) (key : String) (s : Store) :
    (lookUp m key s).1 = if m.outage.get then none else s.text? m.now key := by
  rw [lookUp]
  split
  · rfl
  · rfl

/-- A lookup changes no later one, whether it fails or not. -/
theorem text?_lookUp (h : m.now ≤ t) (key : String) (s : Store) (k : String) :
    (lookUp m key s).2.text? t k = s.text? t k := by
  rw [lookUp]
  split
  · rfl
  · exact Store.text?_get h s key k

/-- So what is found in the store after a lookup is what is found in the cache before it. -/
theorem text?_of_lookUp {cache : ResultCache} {s : Store} (hs : cache.store = some s)
    (h : m.now ≤ t) (key k : String) : (lookUp m key s).2.text? t k = cache.text? t k :=
  (text?_lookUp h key s k).trans (text?_of_store hs t k).symm

/-- The ways in which a text is kept in a store, or not. -/
inductive Keeps (m : Moment) (key : String) (ttl : Nat) (s : Store) :
    Option String → Checked Unit × Store → Prop
  /-- There is no text, or writing fails. -/
  | not {text : Option String} (h : text = none ∨ m.outage.set = true) :
    Keeps m key ttl s text (.ok (), s)
  /-- The text is written. -/
  | written {text : String} (houtage : m.outage.set = false) (hlt : m.now + ttl < Store.clockEnd) :
    Keeps m key ttl s (some text)
      (.ok (), ⟨(s.purge m.now).entries.insert key ⟨text, m.now + ttl⟩⟩)
  /-- The clock does not reach the time at which the text expires. -/
  | brokenOff {text : String} (houtage : m.outage.set = false)
    (hle : Store.clockEnd ≤ m.now + ttl) :
    Keeps m key ttl s (some text) (.error ⟨⟩, s.purge m.now)

/-- Keeping a text goes one of these ways. -/
theorem keeps (m : Moment) (key : String) (text : Option String) (ttl : Nat) (s : Store) :
    Keeps m key ttl s text (keep m key text ttl s) := by
  cases text with
  | none => exact .not (.inl rfl)
  | some text =>
    rw [keep]
    cases houtage : m.outage.set with
    | true => exact .not (.inr houtage)
    | false =>
      rw [if_neg Bool.false_ne_true]
      rcases Nat.lt_or_ge (m.now + ttl) Store.clockEnd with hlt | hle
      · rw [Store.set_of_lt hlt]
        exact .written houtage hlt
      · rw [Store.set_of_le hle]
        exact .brokenOff houtage hle

section Keeps

variable {key : String} {ttl : Nat} {s s' : Store} {text : Option String} {kept : Checked Unit}

/-- Keeping a text breaks off exactly if it is to be written and the clock does not reach the time at
which it expires. -/
theorem Keeps.error_iff (h : Keeps m key ttl s text (kept, s')) :
    kept = .error ⟨⟩ ↔
      text.isSome = true ∧ m.outage.set = false ∧ Store.clockEnd ≤ m.now + ttl := by
  cases h with
  | not hnot =>
    refine ⟨nofun, fun ⟨hsome, houtage, _⟩ => ?_⟩
    obtain rfl | hfails := hnot
    · contradiction
    · rw [houtage] at hfails
      contradiction
  | written houtage hlt =>
    exact ⟨nofun, fun ⟨_, _, hle⟩ => absurd hlt (Nat.not_lt.mpr hle)⟩
  | brokenOff houtage hle => exact ⟨fun _ => ⟨rfl, houtage, hle⟩, fun _ => rfl⟩

/-- A text that is written is found until its time is over, and no other lookup changes. -/
theorem Keeps.text?_of_written {written : String}
    (h : Keeps m key ttl s (some written) (.ok (), s')) (houtage : m.outage.set = false)
    (ht : m.now ≤ t) (k : String) :
    s'.text? t k =
      if key = k then (if t < m.now + ttl then some written else none) else s.text? t k := by
  cases h with
  | not hnot =>
    rw [houtage] at hnot
    exact absurd hnot (by simp)
  | written _ _ => exact Store.text?_insert ht s key written _ k

/-- If there is no text, or writing it fails or breaks off, no lookup changes. -/
theorem Keeps.text?_of_not (h : Keeps m key ttl s text (kept, s'))
    (hnot : text = none ∨ m.outage.set = true ∨ kept = .error ⟨⟩) (ht : m.now ≤ t) (k : String) :
    s'.text? t k = s.text? t k := by
  cases h with
  | not _ => rfl
  | written houtage _ =>
    rw [houtage] at hnot
    exact absurd hnot (by simp)
  | brokenOff _ _ => exact Store.text?_purge ht s k

end Keeps

/-- The ways in which a result is looked up under a key and computed if it is not there. -/
inductive GetsOrComputes {α ε σ : Type} (cache : ResultCache) (m : Moment) (codec : Codec α)
    (ttl : Nat) (compute : σ → Except ε α × σ) (state : σ) :
    Option String → Checked (Except ε (α × Bool)) × ResultCache × σ → Prop
  /-- There is no store or no key. -/
  | absent {key : Option String} (h : cache.store = none ∨ key = none) :
    GetsOrComputes cache m codec ttl compute state key
      (.ok ((compute state).1.map (·, false)), cache, (compute state).2)
  /-- A text is found, and it can be read. -/
  | found {key : String} {s : Store} {a : α} (hstore : cache.store = some s)
    (hfound : (lookUp m key s).1.bind codec.read? = some a) :
    GetsOrComputes cache m codec ttl compute state (some key)
      (.ok (.ok (a, true)),
        { cache with store := some (lookUp m key s).2, hits := cache.hits + 1 }, state)
  /-- Nothing is found, or nothing that can be read, and the computation fails. -/
  | failed {key : String} {s : Store} {e : ε} {after : σ} (hstore : cache.store = some s)
    (hnone : (lookUp m key s).1.bind codec.read? = none)
    (hcompute : compute state = (.error e, after)) :
    GetsOrComputes cache m codec ttl compute state (some key)
      (.ok (.error e),
        { cache with store := some (lookUp m key s).2, misses := cache.misses + 1 }, after)
  /-- Nothing is found, or nothing that can be read, and the computation gives a result, which is
  kept in one of the ways above. -/
  | computed {key : String} {s s' : Store} {a : α} {after : σ} {kept : Checked Unit}
    (hstore : cache.store = some s) (hnone : (lookUp m key s).1.bind codec.read? = none)
    (hcompute : compute state = (.ok a, after))
    (hkeeps : Keeps m key ttl (lookUp m key s).2 (codec.text? a) (kept, s')) :
    GetsOrComputes cache m codec ttl compute state (some key)
      (kept.map fun () => .ok (a, false),
        { cache with store := some s', misses := cache.misses + 1 }, after)

/-- Every lookup goes one of these ways. -/
theorem getsOrComputes {α ε σ : Type} (cache : ResultCache) (m : Moment) (codec : Codec α)
    (scope : String) (payload : Option Value) (ttl : Option Nat) (compute : σ → Except ε α × σ)
    (state : σ) :
    cache.GetsOrComputes m codec (ttl.getD cache.defaultTtl) compute state (key? scope payload)
      (cache.getOrCompute m codec scope payload ttl compute state) := by
  rw [getOrCompute]
  split
  · rename_i s key hstore hkey
    rw [hkey]
    dsimp only
    split
    · rename_i a hfound
      exact .found hstore hfound
    · rename_i hnone
      split
      · rename_i e after hcompute
        exact .failed hstore hnone hcompute
      · rename_i a after hcompute
        exact .computed hstore hnone hcompute (keeps ..)
  · rename_i hnone
    refine .absent ?_
    cases hstore : cache.store with
    | none => exact .inl rfl
    | some s =>
      cases hkey : key? scope payload with
      | none => exact .inr rfl
      | some key => exact absurd hkey (hnone s key hstore)

end ResultCache

end SalesQuery
