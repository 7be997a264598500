import SalesQuery.Proofs.StoreContents

/-!
# The history of a result cache

A cache in use asks for results, removes some and reads the figures, in any order; at every call any
method of the store may fail, and a payload or a result may have no JSON. Its history, the calls with
their moments and answers, tells what a lookup finds: the last text written under the key, if nothing
has removed it since and its time is not over (`LastWritten`). It also tells the counts.

What one call does to later lookups (`ResultCache.changes_perform`) and to the counts
(`ResultCache.perform_counts`) is stated first. From that one more call keeps the history telling
(`CacheRun.Told.step`), and so any calls do.
-/

namespace SalesQuery

open Json (Value)

variable {ε σ : Type}

/-! ## Calls and their answers -/

/-- A call of the cache. Computations change a state `σ` and may fail with an `ε`, and every call may
be about results of a type of its own. -/
inductive CacheCall (ε σ : Type) : Type 1 where
  /-- Asks for the result kept for a payload, or else for the one that is computed. -/
  | getOrCompute {α : Type} (codec : Codec α) (scope : String) (payload : Option Value)
    (ttl : Option Nat) (compute : σ → Except ε α × σ)
  /-- Removes the result kept for a payload. -/
  | invalidateOne (scope : String) (payload : Option Value)
  /-- Removes the results whose keys match a pattern. -/
  | invalidatePattern (pattern : String)
  /-- Asks for the figures. -/
  | stats

/-- What a call is answered with. Only computations can fail, and only lookups and figures can break
off. -/
def CacheCall.Answer : CacheCall ε σ → Type
  | @getOrCompute _ _ α _ _ _ _ _ => Checked (Except ε (α × Bool))
  | invalidateOne _ _ => Bool
  | invalidatePattern _ => Nat
  | stats => Checked CacheStats

/-- The answer to a call, with the cache and the state after it. -/
def ResultCache.perform (cache : ResultCache) (m : Moment) (state : σ) :
    (c : CacheCall ε σ) → c.Answer × ResultCache × σ
  | .getOrCompute codec scope payload ttl compute =>
    cache.getOrCompute m codec scope payload ttl compute state
  | .invalidateOne scope payload =>
    ((cache.invalidateOne m scope payload).1, (cache.invalidateOne m scope payload).2, state)
  | .invalidatePattern pattern =>
    ((cache.invalidatePattern m pattern).1, (cache.invalidatePattern m pattern).2, state)
  | .stats => ((cache.stats m).1, (cache.stats m).2, state)

/-- A call with its moment and its answer. -/
structure Exchange (ε σ : Type) where
  /-- When the call was made, and which methods of the store failed. -/
  moment : Moment
  /-- The call. -/
  call : CacheCall ε σ
  /-- Its answer. -/
  answer : call.Answer

namespace Exchange

/-- The call asked for a result under a key. -/
def isLookup : Exchange ε σ → Bool
  | ⟨_, .getOrCompute _ _ payload _ _, _⟩ => payload.isSome
  | _ => false

/-- The call asked for a result under a key and was answered with a kept one. -/
def isHit : Exchange ε σ → Bool
  | ⟨_, .getOrCompute _ _ payload _ _, answer⟩ =>
    payload.isSome && match answer with
      | .ok (.ok (_, cached)) => cached
      | _ => false
  | _ => false

/-- The call asked for a result under a key and was not answered with a kept one. -/
def isMiss (x : Exchange ε σ) : Bool := x.isLookup && !x.isHit

/-- The call wrote a text under a key: its result was computed and has a text, and writing did not
fail. -/
def Wrote (defaultTtl : Nat) (key : String) (stored : StoredText) : Exchange ε σ → Prop
  | ⟨m, .getOrCompute codec scope payload ttl _, answer⟩ =>
    m.outage.set = false ∧ ResultCache.key? scope payload = some key ∧
      ∃ a, answer = .ok (.ok (a, false)) ∧ codec.text? a = some stored.text ∧
        stored.expires = m.now + ttl.getD defaultTtl
  | _ => False

/-- The call removed what was under a key: by its payload or by a pattern that the key matches, and
removing did not fail. -/
def Removed (key : String) : Exchange ε σ → Prop
  | ⟨m, .invalidateOne scope payload, _⟩ =>
    m.outage.delete = false ∧ ResultCache.key? scope payload = some key
  | ⟨m, .invalidatePattern pattern, _⟩ =>
    m.outage.deleteMatching = false ∧
      ∃ p, KeyPattern.ofString pattern = .ok p ∧ p.matchesKey key = true
  | _ => False

/-- The call neither wrote nor removed anything under a key. -/
def Spared (defaultTtl : Nat) (key : String) (x : Exchange ε σ) : Prop :=
  (∀ stored, ¬x.Wrote defaultTtl key stored) ∧ ¬x.Removed key

/-- What the call does to a later lookup under a key, which found one text before the call and finds
another one after it. -/
inductive Changes (x : Exchange ε σ) (defaultTtl t : Nat) (key : String)
    (before after : Option String) : Prop
  /-- The text that the call wrote is found until its time is over. -/
  | wrote {stored : StoredText} (h : x.Wrote defaultTtl key stored)
    (hafter : after = if t < stored.expires then some stored.text else none)
  /-- Nothing is found, since the call removed what was there. -/
  | removed (h : x.Removed key) (hafter : after = none)
  /-- The call left the key alone, and what was found before is found. -/
  | spared (h : x.Spared defaultTtl key) (hafter : after = before)

end Exchange

/-- A text is the last one that was written under a key, and nothing has removed it since. The
history has the latest exchange first. -/
inductive LastWritten (defaultTtl : Nat) (key : String) (stored : StoredText) :
    List (Exchange ε σ) → Prop
  /-- The latest call wrote the text. -/
  | latest {x : Exchange ε σ} {earlier : List (Exchange ε σ)}
    (h : x.Wrote defaultTtl key stored) : LastWritten defaultTtl key stored (x :: earlier)
  /-- The text was the last one before, and the latest call left it. -/
  | earlier {x : Exchange ε σ} {earlier : List (Exchange ε σ)}
    (h : LastWritten defaultTtl key stored earlier) (hx : x.Spared defaultTtl key) :
    LastWritten defaultTtl key stored (x :: earlier)

/-! ## Runs -/

/-- A cache in use. -/
structure CacheRun (ε σ : Type) where
  /-- The cache. -/
  cache : ResultCache
  /-- The state that computations change. -/
  state : σ
  /-- The calls so far with their answers, the latest first. -/
  history : List (Exchange ε σ) := []

namespace CacheRun

/-- A run that begins, with an empty store or with none. -/
def start (stored : Bool) (defaultTtl : Nat) (state : σ) : CacheRun ε σ where
  cache := { store := if stored then some ∅ else none, defaultTtl }
  state

/-- The run after one more call. -/
def step (r : CacheRun ε σ) (m : Moment) (c : CacheCall ε σ) : CacheRun ε σ where
  cache := (r.cache.perform m r.state c).2.1
  state := (r.cache.perform m r.state c).2.2
  history := ⟨m, c, (r.cache.perform m r.state c).1⟩ :: r.history

/-- The run after calls, in order. -/
def perform (r : CacheRun ε σ) (turns : List (Moment × CacheCall ε σ)) : CacheRun ε σ :=
  turns.foldl (fun r turn => r.step turn.1 turn.2) r

end CacheRun

/-! ## What one call does -/

namespace Exchange

variable {x : Exchange ε σ} {key : String} {defaultTtl : Nat}

/-- A call writes at most one text under a key. -/
theorem Wrote.unique {stored other : StoredText} (h : x.Wrote defaultTtl key stored)
    (h' : x.Wrote defaultTtl key other) : stored = other := by
  obtain ⟨m, c, answer⟩ := x
  obtain ⟨text, expires⟩ := stored
  obtain ⟨text', expires'⟩ := other
  cases c with
  | getOrCompute codec scope payload ttl compute =>
    obtain ⟨-, -, a, hanswer, htext, rfl⟩ := h
    obtain ⟨-, -, b, hanswer', htext', rfl⟩ := h'
    obtain ⟨rfl, -⟩ := Prod.mk.inj (Except.ok.inj (Except.ok.inj (hanswer.symm.trans hanswer')))
    exact congrArg (StoredText.mk · _) (Option.some.inj (htext.symm.trans htext'))
  | _ => exact h.elim

/-- A call that writes removes nothing. -/
theorem Wrote.not_removed {stored : StoredText} (h : x.Wrote defaultTtl key stored) :
    ¬x.Removed key := by
  obtain ⟨m, c, answer⟩ := x
  cases c with
  | getOrCompute codec scope payload ttl compute => exact id
  | _ => exact h.elim

/-- A lookup that is not answered with a computed result writes nothing. -/
theorem spared_of_answer {m : Moment} {α : Type} {codec : Codec α} {scope : String}
    {payload : Option Value} {ttl : Option Nat} {compute : σ → Except ε α × σ}
    {answer : Checked (Except ε (α × Bool))} (h : ∀ a, answer ≠ .ok (.ok (a, false))) :
    Spared defaultTtl key ⟨m, .getOrCompute codec scope payload ttl compute, answer⟩ :=
  ⟨fun _ ⟨_, _, a, hanswer, _⟩ => h a hanswer, id⟩

/-- The outcome of the computation is not a hit. -/
theorem isHit_outcome {m : Moment} {α : Type} {codec : Codec α} {scope : String}
    {payload : Option Value} {ttl : Option Nat} {compute : σ → Except ε α × σ}
    (outcome : Except ε α) : isHit ⟨m, .getOrCompute codec scope payload ttl compute,
      .ok (outcome.map (·, false))⟩ = false := by
  cases outcome with
  | error e => simp [Except.map, isHit]
  | ok a => simp [Except.map, isHit]

/-- Every lookup is a hit or a miss. -/
theorem countP_isHit_add_isMiss (history : List (Exchange ε σ)) :
    history.countP isHit + history.countP isMiss = history.countP isLookup := by
  have hsome (x : Exchange ε σ) (h : x.isHit = true) : x.isLookup = true := by
    obtain ⟨m, c, answer⟩ := x
    cases c with
    | getOrCompute codec scope payload ttl compute => exact (Bool.and_eq_true_iff.mp h).1
    | _ => exact h
  induction history with
  | nil => rfl
  | cons x history ih =>
    rw [List.countP_cons, List.countP_cons, List.countP_cons, ← ih, isMiss]
    cases hhit : x.isHit with
    | true =>
      rw [hsome x hhit]
      simp only [Bool.not_true, Bool.and_false, if_true, if_neg Bool.false_ne_true]
      omega
    | false =>
      simp only [Bool.not_false, Bool.and_true, if_neg Bool.false_ne_true]
      omega

end Exchange

namespace ResultCache

variable {cache : ResultCache} {m : Moment} {t : Nat}

/-- A lookup writes the computed result under its key, or leaves what is found as it is. -/
theorem changes_getOrCompute {α : Type} {s : Store} (h : m.now ≤ t) (hs : cache.store = some s)
    (codec : Codec α) (scope : String) (payload : Option Value) (ttl : Option Nat)
    (compute : σ → Except ε α × σ) (state : σ) (k : String) :
    let reply := cache.getOrCompute m codec scope payload ttl compute state
    Exchange.Changes ⟨m, .getOrCompute codec scope payload ttl compute, reply.1⟩ cache.defaultTtl t k
      (cache.text? t k) (reply.2.1.text? t k) := by
  have hways := cache.getsOrComputes m codec scope payload ttl compute state
  generalize hkey : key? scope payload = place at hways
  generalize cache.getOrCompute m codec scope payload ttl compute state = reply at hways
  -- Whichever way it goes, looking up itself changes nothing that is found later.
  have hlookup (key : String) := text?_of_lookUp hs h key k
  cases hways with
  | absent hnone =>
    obtain rfl : place = none := hnone.resolve_left (by simp [hs])
    refine .spared ⟨fun stored hwrote => ?_, id⟩ rfl
    rw [hwrote.2.1] at hkey
    contradiction
  | @found key _ _ hsome hfound =>
    obtain rfl := Option.some.inj (hs.symm.trans hsome)
    exact .spared (Exchange.spared_of_answer fun a => by simp) (hlookup key)
  | @failed key _ _ _ hsome hnone hcompute =>
    obtain rfl := Option.some.inj (hs.symm.trans hsome)
    exact .spared (Exchange.spared_of_answer fun a => by simp) (hlookup key)
  | @computed key _ s' a after kept hsome hnone hcompute hkeeps =>
    obtain rfl := Option.some.inj (hs.symm.trans hsome)
    generalize htext : codec.text? a = kept? at hkeeps
    cases hkeeps with
    | not hnot =>
      -- The answer is that of a call that wrote, but there is no text or writing failed.
      refine .spared ⟨fun stored hwrote => ?_, id⟩ (hlookup key)
      obtain ⟨houtage, -, b, hanswer, hwritten, -⟩ := hwrote
      obtain ⟨rfl, -⟩ := Prod.mk.inj (Except.ok.inj (Except.ok.inj hanswer))
      simp [← htext, hwritten, houtage] at hnot
    | @written text houtage hlt =>
      have hinsert := Store.text?_insert h (lookUp m key s).2 key text
        (m.now + ttl.getD cache.defaultTtl) k
      by_cases hk : key = k
      · rw [if_pos hk] at hinsert
        have hwrote : Exchange.Wrote cache.defaultTtl k ⟨text, m.now + ttl.getD cache.defaultTtl⟩
            ⟨m, .getOrCompute codec scope payload ttl compute, .ok (.ok (a, false))⟩ :=
          ⟨houtage, hkey.trans (congrArg some hk), a, rfl, htext, rfl⟩
        exact .wrote hwrote hinsert
      · rw [if_neg hk, hlookup] at hinsert
        refine .spared ⟨fun stored hwrote => hk ?_, id⟩ hinsert
        exact Option.some.inj (hkey.symm.trans hwrote.2.1)
    | brokenOff houtage hle =>
      -- The store was purged, which no later lookup sees.
      exact .spared (Exchange.spared_of_answer fun a => by simp [Except.map])
        ((Store.text?_purge h _ k).trans (hlookup key))

/-- A removal for a payload removes what is under its key, unless it fails. -/
theorem changes_invalidateOne {s : Store} (hs : cache.store = some s) (scope : String)
    (payload : Option Value) (k : String) :
    Exchange.Changes (⟨m, .invalidateOne scope payload, (cache.invalidateOne m scope payload).1⟩ :
      Exchange ε σ) cache.defaultTtl t k (cache.text? t k)
      ((cache.invalidateOne m scope payload).2.text? t k) := by
  rw [invalidateOne, hs]
  cases hkey : key? scope payload with
  | none =>
    refine .spared ⟨fun _ => id, fun hremoved => ?_⟩ rfl
    rw [hremoved.2] at hkey
    contradiction
  | some key =>
    cases houtage : m.outage.delete with
    | true =>
      refine .spared ⟨fun _ => id, fun hremoved => ?_⟩ rfl
      rw [hremoved.1] at houtage
      contradiction
    | false =>
      have hdelete := s.text?_delete (t := t) key k
      rw [← text?_of_store hs] at hdelete
      by_cases hk : key = k
      · rw [if_pos hk] at hdelete
        exact .removed ⟨houtage, hkey.trans (congrArg some hk)⟩ hdelete
      · rw [if_neg hk] at hdelete
        refine .spared ⟨fun _ => id, fun hremoved => hk ?_⟩ hdelete
        exact Option.some.inj (hkey.symm.trans hremoved.2)

/-- A removal by pattern removes what is under the keys that match, unless it fails. -/
theorem changes_invalidatePattern {s : Store} (hs : cache.store = some s) (pattern k : String) :
    Exchange.Changes (⟨m, .invalidatePattern pattern, (cache.invalidatePattern m pattern).1⟩ :
      Exchange ε σ) cache.defaultTtl t k (cache.text? t k)
      ((cache.invalidatePattern m pattern).2.text? t k) := by
  rw [invalidatePattern, hs]
  cases houtage : m.outage.deleteMatching with
  | true =>
    refine .spared ⟨fun _ => id, fun hremoved => ?_⟩ rfl
    rw [hremoved.1] at houtage
    contradiction
  | false =>
    cases hpattern : KeyPattern.ofString pattern with
    | error fault =>
      refine .spared ⟨fun _ => id, fun hremoved => ?_⟩ rfl
      obtain ⟨-, p, hp, -⟩ := hremoved
      rw [hp] at hpattern
      contradiction
    | ok p =>
      have hdelete := s.text?_deleteMatching (t := t) p k
      rw [← text?_of_store hs] at hdelete
      by_cases hkey : p.matchesKey k = true
      · rw [if_pos hkey] at hdelete
        exact .removed ⟨houtage, p, hpattern, hkey⟩ hdelete
      · rw [if_neg hkey] at hdelete
        refine .spared ⟨fun _ => id, fun hremoved => ?_⟩ hdelete
        obtain ⟨-, p', hp, hmatch⟩ := hremoved
        rw [hp] at hpattern
        exact hkey (Except.ok.inj hpattern ▸ hmatch)

/-- What a call does to a later lookup under a key. -/
theorem changes_perform (h : m.now ≤ t) (hstore : cache.store.isSome = true) (c : CacheCall ε σ)
    (state : σ) (k : String) :
    Exchange.Changes ⟨m, c, (cache.perform m state c).1⟩ cache.defaultTtl t k (cache.text? t k)
      ((cache.perform m state c).2.1.text? t k) := by
  obtain ⟨s, hs⟩ := Option.isSome_iff_exists.mp hstore
  cases c with
  | getOrCompute codec scope payload ttl compute =>
    exact changes_getOrCompute h hs codec scope payload ttl compute state k
  | invalidateOne scope payload => exact changes_invalidateOne hs scope payload k
  | invalidatePattern pattern => exact changes_invalidatePattern hs pattern k
  | stats =>
    refine .spared ⟨fun _ => id, id⟩ ?_
    simp only [perform, stats, hs]
    split
    · rfl
    · cases m.outage.info with
      | true => rfl
      | false => exact (Store.text?_info h s k).trans (text?_of_store hs t k).symm

/-- A call neither opens nor closes the store, and does not change how long results are kept. -/
theorem perform_keeps (m : Moment) (c : CacheCall ε σ) (state : σ) :
    (cache.perform m state c).2.1.store.isSome = cache.store.isSome ∧
      (cache.perform m state c).2.1.defaultTtl = cache.defaultTtl := by
  cases c with
  | getOrCompute codec scope payload ttl compute =>
    have hways := cache.getsOrComputes m codec scope payload ttl compute state
    simp only [perform]
    generalize key? scope payload = place at hways
    generalize cache.getOrCompute m codec scope payload ttl compute state = reply at hways
    cases hways with
    | absent hnone => exact ⟨rfl, rfl⟩
    | found hsome hfound => exact ⟨by rw [hsome]; rfl, rfl⟩
    | failed hsome hnone hcompute => exact ⟨by rw [hsome]; rfl, rfl⟩
    | computed hsome hnone hcompute hkeeps => exact ⟨by rw [hsome]; rfl, rfl⟩
  | invalidateOne scope payload =>
    simp only [perform, invalidateOne]
    split
    · rename_i hsome hkey houtage
      exact ⟨by rw [hsome]; rfl, rfl⟩
    · exact ⟨rfl, rfl⟩
  | invalidatePattern pattern =>
    simp only [perform, invalidatePattern]
    split
    · rename_i hsome houtage hpattern
      exact ⟨by rw [hsome]; rfl, rfl⟩
    · exact ⟨rfl, rfl⟩
  | stats =>
    simp only [perform, stats]
    split
    · exact ⟨rfl, rfl⟩
    · split
      · rename_i hsome houtage
        exact ⟨by rw [hsome]; rfl, rfl⟩
      · exact ⟨rfl, rfl⟩

/-- A call counts as a hit if it is answered with a kept result, and as a miss if it asks for a
result under a key, there is a store, and it is not a hit. -/
theorem perform_counts (m : Moment) (c : CacheCall ε σ) (state : σ) :
    let x : Exchange ε σ := ⟨m, c, (cache.perform m state c).1⟩
    let after := (cache.perform m state c).2.1
    after.hits = cache.hits + UInt64.ofNat x.isHit.toNat ∧
      after.misses = cache.misses + UInt64.ofNat (cache.store.isSome && x.isMiss).toNat := by
  cases c with
  | getOrCompute codec scope payload ttl compute =>
    have hways := cache.getsOrComputes m codec scope payload ttl compute state
    simp only [perform]
    generalize hkey : key? scope payload = place at hways
    generalize cache.getOrCompute m codec scope payload ttl compute state = reply at hways
    have hsome {key : String} (h : key? scope payload = some key) : payload.isSome = true := by
      obtain ⟨v, rfl, -⟩ := Option.map_eq_some_iff.mp h
      rfl
    cases hways with
    | absent hnone =>
      have hmiss : (cache.store.isSome && payload.isSome) = false := by
        obtain hnone | rfl := hnone
        · rw [hnone]
          rfl
        · rw [Option.map_eq_none_iff.mp hkey, Option.isSome_none, Bool.and_false]
      simp [Exchange.isHit_outcome, Exchange.isMiss, Exchange.isLookup, hmiss]
    | found hstore hfound => simp [hstore, Exchange.isMiss, Exchange.isHit, hsome hkey]
    | failed hstore hnone hcompute =>
      simp [hstore, Exchange.isMiss, Exchange.isHit, Exchange.isLookup, hsome hkey]
    | @computed key s s' a after kept hstore hnone hcompute hkeeps =>
      cases kept with
      | error overflow =>
        simp [hstore, Exchange.isMiss, Exchange.isHit, Exchange.isLookup, hsome hkey, Except.map]
      | ok _ =>
        simp [hstore, Exchange.isMiss, Exchange.isHit, Exchange.isLookup, hsome hkey, Except.map]
  | invalidateOne scope payload =>
    simp only [perform, invalidateOne]
    split
    · simp [Exchange.isMiss, Exchange.isHit, Exchange.isLookup]
    · simp [Exchange.isMiss, Exchange.isHit, Exchange.isLookup]
  | invalidatePattern pattern =>
    simp only [perform, invalidatePattern]
    split
    · simp [Exchange.isMiss, Exchange.isHit, Exchange.isLookup]
    · simp [Exchange.isMiss, Exchange.isHit, Exchange.isLookup]
  | stats =>
    simp only [perform, stats]
    split
    · simp [Exchange.isMiss, Exchange.isHit, Exchange.isLookup]
    · split
      · simp [Exchange.isMiss, Exchange.isHit, Exchange.isLookup]
      · simp [Exchange.isMiss, Exchange.isHit, Exchange.isLookup]

/-- Only a cache with a store answers with a kept result. -/
theorem isSome_store_of_isHit {c : CacheCall ε σ} {state : σ}
    (h : Exchange.isHit ⟨m, c, (cache.perform m state c).1⟩ = true) :
    cache.store.isSome = true := by
  cases c with
  | getOrCompute codec scope payload ttl compute =>
    have hways := cache.getsOrComputes m codec scope payload ttl compute state
    simp only [perform] at h
    generalize key? scope payload = place at hways
    generalize cache.getOrCompute m codec scope payload ttl compute state = reply at hways h
    cases hways with
    | absent hnone =>
      rw [Exchange.isHit_outcome] at h
      contradiction
    | found hstore hfound => exact Option.isSome_of_eq_some hstore
    | failed hstore hnone hcompute => exact Option.isSome_of_eq_some hstore
    | computed hstore hnone hcompute hkeeps => exact Option.isSome_of_eq_some hstore
  | _ => exact nomatch h

end ResultCache

/-! ## What a history tells -/

namespace CacheRun

/-- The history of a run tells what the cache finds and what it has counted. -/
structure Told (stored : Bool) (ttl : Nat) (r : CacheRun ε σ) : Prop where
  /-- The store is there if it was at the beginning. -/
  store : r.cache.store.isSome = stored
  /-- The time for which results are kept is that of the beginning. -/
  defaultTtl : r.cache.defaultTtl = ttl
  /-- From the time of the latest call on, a text is found under a key exactly if it is the last one
  written there, was not removed since and has not expired. -/
  text?_iff : stored = true → ∀ t, (∀ x ∈ r.history, x.moment.now ≤ t) → ∀ key text,
    r.cache.text? t key = some text ↔
      ∃ expires, t < expires ∧ LastWritten ttl key ⟨text, expires⟩ r.history
  /-- The hits are the lookups answered with a kept result. -/
  hits : r.cache.hits = UInt64.ofNat (r.history.countP Exchange.isHit)
  /-- The misses are the other lookups, if there is a store. -/
  misses : r.cache.misses =
    UInt64.ofNat (if stored then r.history.countP Exchange.isMiss else 0)
  /-- There are no hits without a store. -/
  stored_of_isHit : ∀ x ∈ r.history, x.isHit = true → stored = true

variable {stored : Bool} {ttl : Nat} {r : CacheRun ε σ}

/-- The empty history tells of an empty store. -/
theorem told_start (stored : Bool) (ttl : Nat) (state : σ) :
    (start stored ttl state : CacheRun ε σ).Told stored ttl where
  store := by
    cases stored with
    | true => rfl
    | false => rfl
  defaultTtl := rfl
  text?_iff := by
    rintro rfl t - key text
    constructor
    · intro h
      exact nomatch h
    · rintro ⟨-, -, ⟨⟩⟩
  hits := rfl
  misses := by
    cases stored with
    | true => rfl
    | false => rfl
  stored_of_isHit := nofun

/-- One more call, recorded with its answer, keeps the history telling. -/
theorem Told.step (h : r.Told stored ttl) (m : Moment) (c : CacheCall ε σ) :
    (r.step m c).Told stored ttl := by
  obtain ⟨hstore, httl⟩ := r.cache.perform_keeps m c r.state
  obtain ⟨hhits, hmisses⟩ := r.cache.perform_counts m c r.state
  have hone (b : Bool) : b.toNat = if b = true then 1 else 0 := by
    cases b with
    | true => rfl
    | false => rfl
  refine {
    store := hstore.trans h.store
    defaultTtl := httl.trans h.defaultTtl
    text?_iff := fun hstored t ht key text => ?_
    hits := ?_
    misses := ?_
    stored_of_isHit := List.forall_mem_cons.mpr ⟨fun hhit => ?_, h.stored_of_isHit⟩ }
  · obtain ⟨hm, hearlier⟩ := List.forall_mem_cons.mp ht
    have hbefore := h.text?_iff hstored t hearlier key text
    have hchanges := ResultCache.changes_perform hm (h.store.trans hstored) c r.state key
    rw [h.defaultTtl] at hchanges
    cases hchanges with
    | @wrote written hwrote hafter =>
      -- The text that is found is the one that was written last, by this call.
      rw [CacheRun.step, hafter]
      constructor
      · intro hfound
        split at hfound
        · rename_i hlt
          obtain rfl := Option.some.inj hfound
          exact ⟨written.expires, hlt, .latest hwrote⟩
        · contradiction
      · rintro ⟨expires, hlt, hlast⟩
        cases hlast with
        | latest hother =>
          obtain rfl := hwrote.unique hother
          exact if_pos hlt
        | earlier _ hspared => exact absurd hwrote (hspared.1 written)
    | removed hremoved hafter =>
      rw [CacheRun.step, hafter]
      constructor
      · intro hfound
        contradiction
      · rintro ⟨expires, -, hlast⟩
        cases hlast with
        | latest hwrote => exact absurd hremoved hwrote.not_removed
        | earlier _ hspared => exact absurd hremoved hspared.2
    | spared hspared hafter =>
      -- The call left the key alone, and so the text found is the earlier one.
      rw [CacheRun.step, hafter, hbefore]
      constructor
      · rintro ⟨expires, hlt, hlast⟩
        exact ⟨expires, hlt, .earlier hlast hspared⟩
      · rintro ⟨expires, hlt, hlast⟩
        cases hlast with
        | latest hwrote => exact absurd hwrote (hspared.1 _)
        | earlier hlast _ => exact ⟨expires, hlt, hlast⟩
  · rw [CacheRun.step, hhits, h.hits, List.countP_cons, ← hone, UInt64.ofNat_add]
  · rw [CacheRun.step, hmisses, h.misses, h.store, List.countP_cons, ← hone]
    cases stored with
    | true => exact (UInt64.ofNat_add ..).symm
    | false => rfl
  · exact h.store.symm.trans (ResultCache.isSome_store_of_isHit hhit)

/-- So do any calls. -/
theorem Told.perform (h : r.Told stored ttl) (turns : List (Moment × CacheCall ε σ)) :
    (r.perform turns).Told stored ttl := by
  induction turns generalizing r with
  | nil => exact h
  | cons turn turns ih => exact ih (h.step turn.1 turn.2)

end CacheRun

end SalesQuery
