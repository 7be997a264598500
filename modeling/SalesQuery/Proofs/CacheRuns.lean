import SalesQuery.Proofs.CacheHistory

/-!
# Runs of the result cache

What a cache answers after any calls follows from its history (`CacheRun.coherent`): a kept result is
returned exactly if it is found and can be read, everything else is computed once, no failure of the
store is seen, and the counts are those of the history, in 64 bits. There is one way in which keeping
a result spoils the answer: the clock does not reach the time at which the result would expire
(`ResultCache.BreaksOff`).
-/

namespace SalesQuery

open Json (Value)

variable {ε σ : Type}

/-! ## Coherence -/

/-- The text that is kept for a result can be read as the result. -/
def Codec.ReadsBack {α : Type} (codec : Codec α) (a : α) : Prop :=
  ∃ text, codec.text? a = some text ∧ codec.read? text = some a

namespace ResultCache

variable {α : Type}

/-- A result is found for a payload: looking up does not fail, and the text that is under the key can
be read as the result. -/
def Finds (cache : ResultCache) (m : Moment) (codec : Codec α) (scope : String)
    (payload : Option Value) (a : α) : Prop :=
  m.outage.get = false ∧ ∃ key text, key? scope payload = some key ∧
    cache.text? m.now key = some text ∧ codec.read? text = some a

/-- A computation gives a result that is to be written, and the clock does not reach the time at which
it would expire. -/
def BreaksOff (cache : ResultCache) (m : Moment) (codec : Codec α) (payload : Option Value)
    (ttl : Option Nat) (outcome : Except ε α) : Prop :=
  cache.store.isSome = true ∧ payload.isSome = true ∧ m.outage.set = false ∧
    Store.clockEnd ≤ m.now + ttl.getD cache.defaultTtl ∧
    ∃ a, outcome = .ok a ∧ (codec.text? a).isSome = true

/-- How a cache answers a lookup. The state and the cache after it tell whether the computation ran:
for a kept result the state is as it was, otherwise it is as the computation leaves it when it runs
once. -/
structure CacheAside (cache : ResultCache) (m : Moment) (codec : Codec α) (scope : String)
    (payload : Option Value) (ttl : Option Nat) (compute : σ → Except ε α × σ) (state : σ)
    (reply : Checked (Except ε (α × Bool)) × ResultCache × σ) : Prop where
  /-- A result is returned as a kept one exactly if it is found. -/
  hit_iff : ∀ a, reply.1 = .ok (.ok (a, true)) ↔ cache.Finds m codec scope payload a
  /-- Then nothing is computed, and the store is left as it was. -/
  hit : ∀ a, reply.1 = .ok (.ok (a, true)) → reply.2.2 = state ∧ reply.2.1.store = cache.store
  /-- Otherwise the computation runs once. -/
  computes : (∀ a, ¬cache.Finds m codec scope payload a) → reply.2.2 = (compute state).2
  /-- Its outcome is the answer, unless the call breaks off. -/
  answers : (∀ a, ¬cache.Finds m codec scope payload a) →
    ¬cache.BreaksOff m codec payload ttl (compute state).1 →
    reply.1 = .ok ((compute state).1.map (·, false))
  /-- The call breaks off exactly if nothing is found and the clock does not let the computed result
  be written. -/
  breaksOff_iff : reply.1 = .error ⟨⟩ ↔ (∀ a, ¬cache.Finds m codec scope payload a) ∧
    cache.BreaksOff m codec payload ttl (compute state).1
  /-- A computed result that is returned and has a text is found under its key from then on until its
  time is over, unless writing fails; what is found under other keys does not change. -/
  kept : ∀ a key text, reply.1 = .ok (.ok (a, false)) → cache.store.isSome = true →
    m.outage.set = false → key? scope payload = some key → codec.text? a = some text →
    ∀ k t, m.now ≤ t → reply.2.1.text? t k =
      if key = k then (if t < m.now + ttl.getD cache.defaultTtl then some text else none)
      else cache.text? t k
  /-- If writing fails, the payload has no key, or no computed result with a text is returned, nothing
  that is found changes. -/
  not_kept : (m.outage.set = true ∨ payload = none ∨
      ∀ a, reply.1 = .ok (.ok (a, false)) → codec.text? a = none) →
    ∀ k t, m.now ≤ t → reply.2.1.text? t k = cache.text? t k
  /-- If the computation fails, nothing that is found changes either, and the store is left as it was
  unless what was under the key had expired. -/
  failed : ∀ e, reply.1 = .ok (.error e) →
    (∀ k t, m.now ≤ t → reply.2.1.text? t k = cache.text? t k) ∧
      ((∀ s ∈ cache.store, ∀ key ∈ key? scope payload, ∀ stored,
        s.entries.get? key = some stored → m.now < stored.expires) →
      reply.2.1.store = cache.store)

/-- Looking up a key under which nothing has expired leaves the store as it is. -/
theorem lookUp_snd_of_alive {m : Moment} {key : String} {s : Store}
    (h : ∀ stored, s.entries.get? key = some stored → m.now < stored.expires) :
    (lookUp m key s).2 = s := by
  rw [lookUp]
  split
  · rfl
  · exact Store.get_snd_of_alive h

/-- A lookup that reads a result did not fail, and leaves the store as it is. -/
theorem of_lookUp_eq_some {m : Moment} {key : String} {s : Store} {codec : Codec α} {a : α}
    (h : (lookUp m key s).1.bind codec.read? = some a) :
    m.outage.get = false ∧ (∃ text, s.text? m.now key = some text ∧ codec.read? text = some a) ∧
      (lookUp m key s).2 = s := by
  obtain ⟨text, htext, hread⟩ := Option.bind_eq_some_iff.mp h
  rw [lookUp_fst] at htext
  split at htext
  · contradiction
  · rename_i houtage
    obtain ⟨expires, hget, hlt⟩ := Store.text?_eq_some.mp htext
    refine ⟨Bool.eq_false_iff.mpr houtage, ⟨text, htext, hread⟩, lookUp_snd_of_alive ?_⟩
    intro stored hstored
    obtain rfl := Option.some.inj (hget.symm.trans hstored)
    exact hlt

section Finds

variable {cache : ResultCache} {m : Moment} {codec : Codec α} {scope key : String}
  {payload : Option Value} {s : Store}

/-- A result is found where a lookup under the key reads it. -/
theorem finds_iff (hs : cache.store = some s) (hkey : key? scope payload = some key) (a : α) :
    cache.Finds m codec scope payload a ↔ (lookUp m key s).1.bind codec.read? = some a := by
  constructor
  · rintro ⟨houtage, key', text, hkey', htext, hread⟩
    obtain rfl := Option.some.inj (hkey.symm.trans hkey')
    rw [text?_of_store hs] at htext
    rw [lookUp_fst, houtage, htext]
    exact hread
  · intro h
    obtain ⟨houtage, ⟨text, htext, hread⟩, -⟩ := of_lookUp_eq_some h
    exact ⟨houtage, key, text, hkey, (text?_of_store hs _ _).trans htext, hread⟩

/-- Where a lookup reads nothing, nothing is found. -/
theorem not_finds_of_lookUp (hs : cache.store = some s) (hkey : key? scope payload = some key)
    (hnone : (lookUp m key s).1.bind codec.read? = none) (a : α) :
    ¬cache.Finds m codec scope payload a := by
  rw [finds_iff hs hkey, hnone]
  exact (Option.some_ne_none a).symm

/-- Without a store or a key, nothing is found. -/
theorem not_finds (h : cache.store = none ∨ key? scope payload = none) (a : α) :
    ¬cache.Finds m codec scope payload a := by
  rintro ⟨-, key, text, hkey, htext, -⟩
  obtain hnone | hnone := h
  · rw [text?, hnone] at htext
    contradiction
  · rw [hnone] at hkey
    contradiction

/-- A payload has a key if it has a JSON. -/
theorem isSome_key? (scope : String) (payload : Option Value) :
    (key? scope payload).isSome = payload.isSome :=
  Option.isSome_map

end Finds

section Ways

variable {cache : ResultCache} {m : Moment} {codec : Codec α} {scope key : String}
  {payload : Option Value} {ttl : Option Nat} {compute : σ → Except ε α × σ} {state after : σ}
  {s s' : Store} {a : α}

/-- Without a store or a key, the result is computed, and nothing else happens. -/
theorem cacheAside_absent (hnone : cache.store = none ∨ key? scope payload = none) :
    cache.CacheAside m codec scope payload ttl compute state
      (.ok ((compute state).1.map (·, false)), cache, (compute state).2) := by
  have hfinds (a : α) : ¬cache.Finds m codec scope payload a := not_finds hnone a
  have hfresh (a : α) : (compute state).1.map (·, false) ≠ .ok (a, true) := by
    cases (compute state).1 with
    | error e => simp [Except.map]
    | ok b => simp [Except.map]
  have hbreaks : ¬cache.BreaksOff m codec payload ttl (compute state).1 := by
    rintro ⟨hstore, hsome, -⟩
    obtain hnone | hnone := hnone
    · rw [hnone] at hstore
      contradiction
    · rw [← isSome_key? scope, hnone] at hsome
      contradiction
  refine {
    hit_iff := fun a =>
      ⟨fun h => absurd (Except.ok.inj h) (hfresh a), fun h => absurd h (hfinds a)⟩
    hit := fun a h => absurd (Except.ok.inj h) (hfresh a)
    computes := fun _ => rfl
    answers := fun _ _ => rfl
    breaksOff_iff := ⟨nofun, fun h => absurd h.2 hbreaks⟩
    kept := fun a key text _ hstore _ hkey => ?_
    not_kept := fun _ k t _ => rfl
    failed := fun e _ => ⟨fun k t _ => rfl, fun _ => rfl⟩ }
  obtain hnone | hnone := hnone
  · rw [hnone] at hstore
    contradiction
  · rw [hnone] at hkey
    contradiction

/-- A text that is found and can be read gives the result, and nothing is computed. -/
theorem cacheAside_found (hs : cache.store = some s) (hkey : key? scope payload = some key)
    (hfound : (lookUp m key s).1.bind codec.read? = some a) :
    cache.CacheAside m codec scope payload ttl compute state
      (.ok (.ok (a, true)), { cache with store := some (lookUp m key s).2, hits := cache.hits + 1 },
        state) := by
  obtain ⟨-, -, hstore⟩ := of_lookUp_eq_some hfound
  have hfinds := (finds_iff hs hkey a).mpr hfound
  refine {
    hit_iff := fun b => ⟨fun h => ?_, fun h => ?_⟩
    hit := fun b h => ⟨rfl, (congrArg some hstore).trans hs.symm⟩
    computes := fun h => absurd hfinds (h a)
    answers := fun h => absurd hfinds (h a)
    breaksOff_iff := ⟨nofun, fun h => absurd hfinds (h.1 a)⟩
    kept := fun b key text h => by simp at h
    not_kept := fun _ k t ht => text?_of_lookUp hs ht key k
    failed := fun e h => by simp at h }
  · obtain ⟨rfl, -⟩ := Prod.mk.inj (Except.ok.inj (Except.ok.inj h))
    exact hfinds
  · have hb := (finds_iff hs hkey b).mp h
    rw [Option.some.inj (hfound.symm.trans hb)]

/-- Where nothing can be read, a computation that fails is the answer. -/
theorem cacheAside_failed {e : ε} (hs : cache.store = some s)
    (hkey : key? scope payload = some key)
    (hnone : (lookUp m key s).1.bind codec.read? = none)
    (hcompute : compute state = (.error e, after)) :
    cache.CacheAside m codec scope payload ttl compute state
      (.ok (.error e), { cache with store := some (lookUp m key s).2, misses := cache.misses + 1 },
        after) := by
  have hfinds := not_finds_of_lookUp hs hkey hnone
  refine {
    hit_iff := fun a => ⟨fun h => by simp at h, fun h => absurd h (hfinds a)⟩
    hit := fun a h => by simp at h
    computes := fun _ => by rw [hcompute]
    answers := fun _ _ => by rw [hcompute]; rfl
    breaksOff_iff := ⟨nofun, fun ⟨_, _, _, _, _, a, ha, _⟩ => ?_⟩
    kept := fun a key text h => by simp at h
    not_kept := fun _ k t ht => text?_of_lookUp hs ht key k
    failed := fun _ _ => ⟨fun k t ht => text?_of_lookUp hs ht key k, fun halive => ?_⟩ }
  · rw [hcompute] at ha
    contradiction
  · exact (congrArg some (lookUp_snd_of_alive (halive s hs key hkey))).trans hs.symm

/-- Where nothing can be read, a computed result is kept and is the answer, unless keeping it breaks
off. -/
theorem cacheAside_computed {kept : Checked Unit} (hs : cache.store = some s)
    (hkey : key? scope payload = some key)
    (hnone : (lookUp m key s).1.bind codec.read? = none)
    (hcompute : compute state = (.ok a, after))
    (hkeeps : Keeps m key (ttl.getD cache.defaultTtl) (lookUp m key s).2 (codec.text? a)
      (kept, s')) :
    cache.CacheAside m codec scope payload ttl compute state
      (kept.map fun () => .ok (a, false),
        { cache with store := some s', misses := cache.misses + 1 }, after) := by
  have hfinds := not_finds_of_lookUp hs hkey hnone
  have hpayload : payload.isSome = true := by
    rw [← isSome_key? scope, hkey]
    rfl
  -- The answer is an error exactly if keeping the result breaks off.
  have hbreaks : kept = .error ⟨⟩ ↔ cache.BreaksOff m codec payload ttl (compute state).1 := by
    rw [hkeeps.error_iff, BreaksOff, hcompute, hs, hpayload]
    constructor
    · rintro ⟨htext, houtage, hle⟩
      exact ⟨rfl, rfl, houtage, hle, a, rfl, htext⟩
    · rintro ⟨-, -, houtage, hle, b, hb, htext⟩
      obtain rfl := Except.ok.inj hb
      exact ⟨htext, houtage, hle⟩
  refine {
    hit_iff := fun b => ⟨fun h => ?_, fun h => absurd h (hfinds b)⟩
    hit := fun b h => ?_
    computes := fun _ => by rw [hcompute]
    answers := fun _ hnot => ?_
    breaksOff_iff := ⟨fun h => ⟨hfinds, hbreaks.mp ?_⟩, fun h => ?_⟩
    kept := fun b key' text h _ houtage hkey' htext k t ht => ?_
    not_kept := fun hnot k t ht => ?_
    failed := fun e h => ?_ }
  · cases kept <;> simp [Except.map] at h
  · cases kept <;> simp [Except.map] at h
  · rw [hcompute]
    cases kept with
    | error overflow => exact absurd (hbreaks.mp rfl) hnot
    | ok _ => rfl
  · cases kept with
    | error overflow => rfl
    | ok _ => exact nomatch h
  · rw [hbreaks.mpr h.2]
    rfl
  · obtain rfl := Option.some.inj (hkey.symm.trans hkey')
    cases kept with
    | error overflow => exact nomatch h
    | ok _ =>
      obtain ⟨rfl, -⟩ := Prod.mk.inj (Except.ok.inj (Except.ok.inj h))
      rw [htext] at hkeeps
      rw [← text?_of_lookUp hs ht key k]
      exact hkeeps.text?_of_written houtage ht k
  · refine (hkeeps.text?_of_not ?_ ht k).trans (text?_of_lookUp hs ht key k)
    obtain houtage | rfl | hnone := hnot
    · exact .inr (.inl houtage)
    · exact nomatch hkey
    · cases kept with
      | error overflow => exact .inr (.inr rfl)
      | ok _ => exact .inl (hnone a rfl)
  · cases kept <;> simp [Except.map] at h

end Ways

/-- Every lookup is answered that way. -/
theorem cacheAside (cache : ResultCache) (m : Moment) (codec : Codec α) (scope : String)
    (payload : Option Value) (ttl : Option Nat) (compute : σ → Except ε α × σ) (state : σ) :
    cache.CacheAside m codec scope payload ttl compute state
      (cache.getOrCompute m codec scope payload ttl compute state) := by
  have hways := cache.getsOrComputes m codec scope payload ttl compute state
  generalize cache.getOrCompute m codec scope payload ttl compute state = reply at hways
  generalize hkey : key? scope payload = place at hways
  cases hways with
  | absent hnone => exact cacheAside_absent (hkey ▸ hnone)
  | found hs hfound => exact cacheAside_found hs hkey hfound
  | failed hs hnone hcompute => exact cacheAside_failed hs hkey hnone hcompute
  | computed hs hnone hcompute hkeeps => exact cacheAside_computed hs hkey hnone hcompute hkeeps

/-- A result that was computed and kept is the answer to the next lookup of its payload, as long as
its time is not over, provided that its text reads back as the result. -/
theorem CacheAside.returned_again {cache : ResultCache} {m m' : Moment} {codec : Codec α}
    {scope : String} {payload : Value} {ttl ttl' : Option Nat}
    {compute compute' : σ → Except ε α × σ} {state : σ}
    {reply : Checked (Except ε (α × Bool)) × ResultCache × σ}
    (h : cache.CacheAside m codec scope (some payload) ttl compute state reply) {a : α}
    (ha : reply.1 = .ok (.ok (a, false))) (hstore : cache.store.isSome = true)
    (hset : m.outage.set = false) (hread : codec.ReadsBack a)
    (hget : m'.outage.get = false) (hle : m.now ≤ m'.now)
    (hlt : m'.now < m.now + ttl.getD cache.defaultTtl) :
    (reply.2.1.getOrCompute m' codec scope (some payload) ttl' compute' reply.2.2).1 =
      .ok (.ok (a, true)) := by
  obtain ⟨text, htext, hread⟩ := hread
  have hkept := h.kept a _ text ha hstore hset rfl htext (fingerprint scope payload) m'.now hle
  rw [if_pos rfl, if_pos hlt] at hkept
  exact ((reply.2.1.cacheAside m' codec scope (some payload) ttl' compute' reply.2.2).hit_iff a).mpr
    ⟨hget, _, text, rfl, hkept, hread⟩

/-- A removal that fails removes nothing, and so does one for a payload without a key. -/
theorem invalidateOne_of_fails (cache : ResultCache) {m : Moment} {scope : String}
    {payload : Option Value} (h : m.outage.delete = true ∨ payload = none) :
    cache.invalidateOne m scope payload = (false, cache) := by
  rw [invalidateOne]
  obtain houtage | rfl := h
  · rw [houtage]
    split
    · contradiction
    · rfl
  · rw [key?, Option.map_none]
    split
    · contradiction
    · rfl

/-- A removal by pattern that fails removes nothing. -/
theorem invalidatePattern_of_fails (cache : ResultCache) {m : Moment}
    (h : m.outage.deleteMatching = true) {pattern : String} :
    cache.invalidatePattern m pattern = (0, cache) := by
  rw [invalidatePattern, h]
  split
  · contradiction
  · rfl

/-- Reading the figures gives the counts if they fit together. -/
theorem stats_of_lt (cache : ResultCache) (m : Moment)
    (h : cache.hits.toNat + cache.misses.toNat < UInt64.size) :
    ∃ figures, (cache.stats m).1 = .ok figures ∧
      figures.hits = cache.hits ∧ figures.misses = cache.misses := by
  rw [stats]
  split
  · rename_i overflow hlookups
    exact absurd h (Nat.not_lt.mpr (fit64_eq_error.mp hlookups))
  · split
    · exact ⟨_, rfl, rfl, rfl⟩
    · exact ⟨_, rfl, rfl, rfl⟩

/-- Reading the figures breaks off exactly if they do not fit together. -/
theorem stats_breaksOff_iff (cache : ResultCache) (m : Moment) :
    (cache.stats m).1 = .error ⟨⟩ ↔ UInt64.size ≤ cache.hits.toNat + cache.misses.toNat := by
  constructor
  · intro hbroken
    refine Nat.not_lt.mp fun hlt => ?_
    obtain ⟨figures, hstats, -⟩ := cache.stats_of_lt m hlt
    rw [hstats] at hbroken
    contradiction
  · intro hle
    rw [stats, lookups, fit64_eq_error.mpr hle]

end ResultCache

namespace CacheRun

/-- A cache in use answers as its history tells. -/
structure Coherent (stored : Bool) (ttl : Nat) (r : CacheRun ε σ) : Prop where
  /-- From the time of the latest call on, a text is found under a key exactly if it is the last one
  written there, was not removed since and has not expired; without a store nothing is found. -/
  found_iff : ∀ t, (∀ x ∈ r.history, x.moment.now ≤ t) → ∀ key text,
    r.cache.text? t key = some text ↔
      stored = true ∧ ∃ expires, t < expires ∧ LastWritten ttl key ⟨text, expires⟩ r.history
  /-- A result is returned if a text is found that can be read as one, and is computed once and kept
  otherwise, whichever methods of the store fail. The answer is lost exactly if the result is to be
  kept for longer than the clock counts. -/
  lookup : ∀ {α : Type} (m : Moment) (codec : Codec α) (scope : String) (payload : Option Value)
    (lifetime : Option Nat) (compute : σ → Except ε α × σ),
    r.cache.CacheAside m codec scope payload lifetime compute r.state
      (r.cache.getOrCompute m codec scope payload lifetime compute r.state)
  /-- A computed result whose text reads back is returned by further lookups until its time is over,
  unless writing it failed. -/
  again : ∀ {α : Type} (m m' : Moment) (codec : Codec α) (scope : String) (payload : Value)
    (lifetime lifetime' : Option Nat) (compute compute' : σ → Except ε α × σ) (a : α),
    let reply := r.cache.getOrCompute m codec scope (some payload) lifetime compute r.state
    stored = true → reply.1 = .ok (.ok (a, false)) → m.outage.set = false →
    codec.ReadsBack a → m'.outage.get = false → m.now ≤ m'.now →
    m'.now < m.now + lifetime.getD ttl →
    (reply.2.1.getOrCompute m' codec scope (some payload) lifetime' compute' reply.2.2).1 =
      .ok (.ok (a, true))
  /-- A removal that fails removes nothing, and so does one for a payload without a key. -/
  remove_outage : ∀ m : Moment, ∀ scope payload, m.outage.delete = true ∨ payload = none →
    r.cache.invalidateOne m scope payload = (false, r.cache)
  /-- So does a removal by pattern that fails. -/
  removeMatching_outage : ∀ m : Moment, m.outage.deleteMatching = true → ∀ pattern,
    r.cache.invalidatePattern m pattern = (0, r.cache)
  /-- The counts are those of the history, in 64 bits: the hits are the lookups answered with a kept
  result, and the misses are the others, or nothing without a store. -/
  counters : r.cache.hits = UInt64.ofNat (r.history.countP Exchange.isHit) ∧
    r.cache.misses = UInt64.ofNat (if stored then r.history.countP Exchange.isMiss else 0)
  /-- Reading the figures breaks off exactly if hits and misses together do not fit 64 bits. -/
  stats_breaksOff_iff : ∀ m : Moment, (r.cache.stats m).1 = .error ⟨⟩ ↔
    UInt64.size ≤ r.cache.hits.toNat + r.cache.misses.toNat
  /-- As long as 64 bits count the lookups, the figures are exact, also when measuring the store
  fails: hits and misses together are the lookups, or nothing without a store. -/
  counts : r.history.countP Exchange.isLookup < UInt64.size → ∀ m : Moment,
    ∃ figures, (r.cache.stats m).1 = .ok figures ∧
      figures.hits.toNat = r.history.countP Exchange.isHit ∧
      figures.hits.toNat + figures.misses.toNat =
        if stored then r.history.countP Exchange.isLookup else 0

/-- The counts of a history are the figures as long as 64 bits count its lookups. -/
theorem Told.counts {r : CacheRun ε σ} {stored : Bool} {ttl : Nat} (h : r.Told stored ttl)
    (hlookups : r.history.countP Exchange.isLookup < UInt64.size) :
    r.cache.hits.toNat = r.history.countP Exchange.isHit ∧
      r.cache.hits.toNat + r.cache.misses.toNat =
        if stored then r.history.countP Exchange.isLookup else 0 := by
  -- Neither count is above the lookups, so both are held as they are.
  have hsum := Exchange.countP_isHit_add_isMiss r.history
  have hhits : r.cache.hits.toNat = r.history.countP Exchange.isHit := by
    rw [h.hits]
    exact UInt64.toNat_ofNat_of_lt (by omega)
  have hmisses : r.cache.misses.toNat =
      if stored then r.history.countP Exchange.isMiss else 0 := by
    rw [h.misses]
    exact UInt64.toNat_ofNat_of_lt (by split <;> omega)
  refine ⟨hhits, ?_⟩
  rw [hhits, hmisses]
  cases stored with
  | true => exact hsum
  | false =>
    refine List.countP_eq_zero.mpr fun x hx hhit => ?_
    exact absurd (h.stored_of_isHit x hx hhit) Bool.false_ne_true

/-- After any calls of a cache with an empty store or with none, made at any times and with any
failures of the store, it answers as the history of these calls tells. -/
theorem coherent (stored : Bool) (ttl : Nat) (state : σ) (turns : List (Moment × CacheCall ε σ)) :
    ((start stored ttl state).perform turns).Coherent stored ttl := by
  have htold := (told_start (ε := ε) stored ttl state).perform turns
  generalize (start stored ttl state : CacheRun ε σ).perform turns = r at htold
  refine {
    found_iff := fun t ht key text => ?_
    lookup := fun m codec scope payload lifetime compute =>
      r.cache.cacheAside m codec scope payload lifetime compute r.state
    again := fun m m' codec scope payload lifetime lifetime' compute compute' a => ?_
    remove_outage := fun m scope payload => r.cache.invalidateOne_of_fails
    removeMatching_outage := fun m houtage pattern => r.cache.invalidatePattern_of_fails houtage
    counters := ⟨htold.hits, htold.misses⟩
    stats_breaksOff_iff := fun m => r.cache.stats_breaksOff_iff m
    counts := fun hlookups m => ?_ }
  · cases stored with
    | true => rw [htold.text?_iff rfl t ht key text, and_iff_right rfl]
    | false =>
      have hnone : r.cache.store = none := by simpa using htold.store
      simp [ResultCache.text?, hnone]
  · intro reply hstored ha hset hread hget hle hlt
    rw [← htold.defaultTtl] at hlt
    exact (r.cache.cacheAside m codec scope (some payload) lifetime compute r.state).returned_again
      ha (htold.store.trans hstored) hset hread hget hle hlt
  · -- The sum of the counts fits, since it is that of the lookups or zero.
    obtain ⟨hhits, htotal⟩ := htold.counts hlookups
    have hlt : r.cache.hits.toNat + r.cache.misses.toNat < UInt64.size := by
      rw [htotal]
      split <;> omega
    obtain ⟨figures, hstats, hsame, hsame'⟩ := r.cache.stats_of_lt m hlt
    exact ⟨figures, hstats, by rw [hsame, hhits], by rw [hsame, hsame', htotal]⟩

end CacheRun

/-- Lists of integers, as they are kept. -/
def integersCodec : Codec (List Int) := Codec.list ⟨fun n => some (.int n), Json.Decoder.int64⟩

/-- Gives three integers, and counts how often it does. -/
def countedIntegers (count : Nat) : Except Unit (List Int) × Nat := (.ok [1, 2, 3], count + 1)

/-- Integers are computed and kept; at the next lookup neither reading nor writing works, and
removing them fails as well. -/
def failingTurns : List (Moment × CacheCall Unit Nat) :=
  [(⟨10, {}⟩, .getOrCompute integersCodec queryScope (some .null) none countedIntegers),
    (⟨20, { get := true, set := true }⟩,
      .getOrCompute integersCodec queryScope (some .null) none countedIntegers),
    (⟨30, { delete := true }⟩, .invalidateOne queryScope (some .null))]

/-- After these calls, the integers kept by the first one are the last written, and the next lookup
returns them without computing them a third time. -/
theorem CacheRun.coherent_failingTurns :
    let r : CacheRun Unit Nat := (CacheRun.start true 60 0).perform failingTurns
    let reply := r.cache.getOrCompute ⟨40, {}⟩ integersCodec queryScope (some .null) none
      countedIntegers r.state
    (∀ x ∈ r.history, x.moment.now ≤ 40) ∧
      LastWritten 60 (fingerprint queryScope .null) ⟨"[1,2,3]", 70⟩ r.history ∧
      reply.1 = .ok (.ok ([1, 2, 3], true)) ∧ reply.2.2 = 2 ∧
      ∃ figures, (r.cache.stats ⟨40, {}⟩).1 = .ok figures ∧
        figures.hits.toNat + figures.misses.toNat = 2 := by
  intro r reply
  have hr := CacheRun.coherent true 60 0 failingTurns
  have htimes : ∀ x ∈ r.history, x.moment.now ≤ 40 := by
    simp only [r, CacheRun.perform, failingTurns, List.foldl, CacheRun.step, CacheRun.start,
      List.forall_mem_cons]
    exact ⟨by decide, by decide, by decide, List.forall_mem_nil _⟩
  have hfresh : integersCodec.text? [1, 2, 3] = some "[1,2,3]" := by decide +kernel
  have hlast : LastWritten 60 (fingerprint queryScope .null) ⟨"[1,2,3]", 70⟩ r.history :=
    .earlier (.earlier (.latest ⟨rfl, rfl, [1, 2, 3], rfl, hfresh, rfl⟩)
      ⟨fun _ h => Bool.noConfusion h.1, id⟩) ⟨fun _ => id, fun h => Bool.noConfusion h.1⟩
  have hread : integersCodec.read? "[1,2,3]" = some [1, 2, 3] := by decide +kernel
  have hfound := (hr.found_iff 40 htimes _ _).mpr ⟨rfl, 70, by decide, hlast⟩
  have hanswer := hr.lookup ⟨40, {}⟩ integersCodec queryScope (some .null) none countedIntegers
  have hhit := (hanswer.hit_iff [1, 2, 3]).mpr ⟨rfl, _, _, rfl, hfound, hread⟩
  have hlookups : r.history.countP Exchange.isLookup < UInt64.size :=
    Nat.lt_of_le_of_lt List.countP_le_length (by decide)
  obtain ⟨figures, hstats, -, htotal⟩ := hr.counts hlookups ⟨40, {}⟩
  exact ⟨htimes, hlast, hhit, (hanswer.hit [1, 2, 3] hhit).1, figures, hstats, htotal⟩

/-- A result that is to be kept for as long as an integer of 64 bits can say is computed once, and no
method of the store fails, but its caller does not get it: the call breaks off. -/
theorem CacheRun.lasting_result_lost :
    let r : CacheRun Unit Nat := CacheRun.start true 60 0
    let reply := r.cache.getOrCompute ⟨1, {}⟩ integersCodec queryScope (some .null)
      (some 9223372036854775807) countedIntegers r.state
    (countedIntegers r.state).1 = .ok [1, 2, 3] ∧ reply.2.2 = 1 ∧ reply.1 = .error ⟨⟩ ∧
      reply.1 ≠ .ok (.ok ([1, 2, 3], false)) := by
  intro r reply
  have hanswer := r.cache.cacheAside ⟨1, {}⟩ integersCodec queryScope (some .null)
    (some 9223372036854775807) countedIntegers r.state
  have hnone (a : List Int) : ¬r.cache.Finds ⟨1, {}⟩ integersCodec queryScope (some .null) a :=
    fun ⟨_, _, _, _, htext, _⟩ => nomatch htext
  have hbroken : reply.1 = .error ⟨⟩ := by
    refine hanswer.breaksOff_iff.mpr ⟨hnone, rfl, rfl, rfl, by decide, [1, 2, 3], rfl, ?_⟩
    decide +kernel
  refine ⟨rfl, hanswer.computes hnone, hbroken, ?_⟩
  rw [hbroken]
  nofun

end SalesQuery
