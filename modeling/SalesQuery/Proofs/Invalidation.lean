import SalesQuery.Proofs.CacheKeys
import SalesQuery.Proofs.CacheRuns

/-!
# Invalidation

A query is answered from the cache, and removed from it, under one key that is derived from its
canonical form in two places. In every session that calls of the engine lead to, a query that was
answered is answered from the cache when a request with its canonical form asks again; a removal for
any such request removes its result and no other one; and clearing the cache with the pattern of all
scopes leaves nothing (`Engine.removes_exactly`).
-/

namespace SalesQuery

open Json (Value)

/-! ## Patterns that end with a star -/

/-- A part for any text that stands last matches every text. -/
theorem KeyToken.matchEnd_anyText (text : List Char) : matchEnd [.anyText] text = .matched := by
  induction text with
  | nil => simp [matchEnd]
  | cons c text ih =>
    rw [matchEnd, ih]
    rw [matchEnd]

/-- Parts for single characters match these characters, and then the other parts match the rest. -/
theorem KeyToken.matchEnd_literal (l : List Char) (tokens : List KeyToken) (text : List Char) :
    matchEnd (l.map .char ++ tokens) (l ++ text) = matchEnd tokens text := by
  induction l with
  | nil => rfl
  | cons c l ih =>
    rw [List.map_cons, List.cons_append, List.cons_append, matchEnd]
    · simp [KeyToken.holds, ih]
    · simp

/-- The parts of the pattern of all scopes. -/
theorem KeyPattern.ofString_everyScope :
    ofString everyScope = .ok ⟨"analytics:".toList.map .char ++ [.anyText]⟩ := by
  decide +kernel

/-- The key of a result matches the pattern of all scopes, whichever endpoint it is of. -/
theorem matchesKey_everyScope (endpoint : Endpoint) (payload : Value) :
    (⟨"analytics:".toList.map .char ++ [.anyText]⟩ : KeyPattern).matchesKey
      (fingerprint endpoint.scope payload) = true := by
  have hscope : ∃ rest, endpoint.scope.toList = "analytics:".toList ++ rest := by
    cases endpoint with
    | query => exact ⟨"query".toList, by decide⟩
    | dashboard => exact ⟨"kpis".toList, by decide⟩
    | comparison => exact ⟨"compare".toList, by decide⟩
    | listing => exact ⟨"dimensions".toList, by decide⟩
  obtain ⟨rest, hrest⟩ := hscope
  rw [KeyPattern.matchesKey, fingerprint, String.toList_append, String.toList_append, hrest,
    List.append_assoc, List.append_assoc, KeyToken.matchEnd_literal, KeyToken.matchEnd_anyText]
  rfl

/-! ## Runs of the engine -/

/-- What the engine is asked for. -/
inductive Turn where
  /-- Asks for a result. -/
  | ask (c : Call)
  /-- Removes the result of a query. -/
  | invalidate (r : QueryRequest)
  /-- Removes the results whose keys match a pattern. -/
  | clear (pattern : String)

/-- A session that begins: an empty store, and a database on which nothing was executed. -/
def Session.start {σ : Type} (ttl : Nat) (database : σ) : Session σ where
  cache := { store := some ∅, defaultTtl := ttl }
  backend := { database }

/-- What is under a key in a session, expired or not. -/
def Session.stored? {σ : Type} (s : Session σ) (key : String) : Option StoredText :=
  s.cache.store.bind fun store => store.entries.get? key

namespace Engine

variable {σ : Type}

/-- The session after one turn. -/
def turn (e : Engine σ) (m : Moment) (s : Session σ) : Turn → Session σ
  | .ask c => e.after m s c
  | .invalidate r => (e.invalidateQuery m r s).2
  | .clear pattern => (e.clearCache m pattern s).2

/-- The session after turns, in order. -/
def turns (e : Engine σ) (s : Session σ) (l : List (Moment × Turn)) : Session σ :=
  l.foldl (fun s t => e.turn t.1 s t.2) s

/-- The key under which the result of a query is kept, given its canonical form. -/
def queryKey (c : QueryRequest) : String := fingerprint queryScope c.toJson

end Engine

/-! ## The keys of a session -/

namespace Store

/-- The keys of a store are keys of results. -/
def Scoped (s : Store) : Prop :=
  ∀ entry ∈ s.entries.entries, ∃ (endpoint : Endpoint) (payload : Value),
    entry.1 = fingerprint endpoint.scope payload

variable {s : Store}

/-- Some entries of such a store are a store of this kind. -/
theorem Scoped.keep (h : s.Scoped) (p : String × StoredText → Bool) : (s.keep p).Scoped :=
  fun _ hentry => h _ (List.mem_of_mem_filter hentry)

/-- So is the store without a key. -/
theorem Scoped.erase (h : s.Scoped) (key : String) : Scoped ⟨s.entries.erase key⟩ :=
  fun _ hentry => h _ (List.mem_of_mem_filter hentry)

/-- Looking up a key adds none. -/
theorem Scoped.lookUp (h : s.Scoped) (m : Moment) (key : String) :
    (ResultCache.lookUp m key s).2.Scoped := by
  rw [ResultCache.lookUp]
  split
  · exact h
  · rw [Store.get]
    split
    · exact h
    · split
      · exact h
      · exact h.erase key

/-- Keeping a result adds its key only. -/
theorem Scoped.keeps {m : Moment} {endpoint : Endpoint} {payload : Value} {ttl : Nat}
    {text : Option String} {kept : Checked Unit} {s' : Store} (h : s.Scoped)
    (hkeeps : ResultCache.Keeps m (fingerprint endpoint.scope payload) ttl s text (kept, s')) :
    s'.Scoped := by
  cases hkeeps with
  | not _ => exact h
  | written _ _ =>
    intro entry hentry
    obtain rfl | hentry := Dictionary.mem_of_mem_insertEntry hentry
    · exact ⟨endpoint, payload, rfl⟩
    · exact h.keep _ entry hentry
  | brokenOff _ _ => exact h.keep _

end Store

namespace Session

variable {σ : Type} {s : Session σ}

/-- There is a store, and its keys are keys of results. -/
def Scoped (s : Session σ) : Prop := ∃ store, s.cache.store = some store ∧ store.Scoped

/-- A result that is looked up under the scope of an endpoint adds at most a key of this scope. -/
theorem Scoped.getOrCompute {α : Type} (h : s.Scoped) (m : Moment) (codec : Codec α)
    (endpoint : Endpoint) (payload : Value)
    (compute : Backend σ → Except ServiceFault α × Backend σ) :
    (s.getOrCompute m codec endpoint.scope payload compute).2.Scoped := by
  obtain ⟨store, hstore, hscoped⟩ := h
  have hways := s.cache.getsOrComputes m codec endpoint.scope (some payload) none compute s.backend
  simp only [Session.getOrCompute]
  generalize s.cache.getOrCompute m codec endpoint.scope (some payload) none compute s.backend =
    reply at hways
  generalize hkey : ResultCache.key? endpoint.scope (some payload) = place at hways
  cases hways with
  | absent hnone =>
    obtain hnone | rfl := hnone
    · rw [hnone] at hstore
      contradiction
    · exact nomatch hkey
  | found hsome hfound =>
    obtain rfl := Option.some.inj (hstore.symm.trans hsome)
    exact ⟨_, rfl, hscoped.lookUp m _⟩
  | failed hsome hnone hcompute =>
    obtain rfl := Option.some.inj (hstore.symm.trans hsome)
    exact ⟨_, rfl, hscoped.lookUp m _⟩
  | computed hsome hnone hcompute hkeeps =>
    obtain rfl := Option.some.inj (hstore.symm.trans hsome)
    obtain rfl := Option.some.inj hkey
    exact ⟨_, rfl, (hscoped.lookUp m _).keeps hkeeps⟩

/-- A lookup does not change how long results are kept. -/
theorem defaultTtl_getOrCompute {α : Type} (s : Session σ) (m : Moment) (codec : Codec α)
    (scope : String) (payload : Value)
    (compute : Backend σ → Except ServiceFault α × Backend σ) :
    (s.getOrCompute m codec scope payload compute).2.cache.defaultTtl = s.cache.defaultTtl :=
  (s.cache.perform_keeps m (.getOrCompute codec scope (some payload) none compute) s.backend).2

end Session

namespace Engine

variable {σ : Type} {e : Engine σ} {s : Session σ}

/-- No turn adds a key that is not one of a result. -/
theorem scoped_turn (h : s.Scoped) (m : Moment) (t : Turn) : (e.turn m s t).Scoped := by
  cases t with
  | ask c =>
    rw [turn]
    cases hc : e.lookup c with
    | error fault => rwa [after_eq_of_fault hc]
    | ok p =>
      obtain ⟨α, codec, compute, -, hafter⟩ := uses_of_lookup hc m s
      rw [hafter]
      exact h.getOrCompute m codec p.endpoint p.payload compute
  | invalidate r =>
    obtain ⟨store, hstore, hscoped⟩ := h
    rw [turn, invalidateQuery]
    split
    · exact ⟨store, hstore, hscoped⟩
    · rename_i c hc
      simp only [ResultCache.invalidateOne, ResultCache.key?, Option.map_some, hstore]
      cases m.outage.delete with
      | true => exact ⟨store, hstore, hscoped⟩
      | false => exact ⟨_, rfl, hscoped.erase _⟩
  | clear pattern =>
    obtain ⟨store, hstore, hscoped⟩ := h
    simp only [turn, clearCache, ResultCache.invalidatePattern, hstore]
    split
    · rename_i hsome _ _
      obtain rfl := Option.some.inj hsome
      exact ⟨_, rfl, hscoped.keep _⟩
    · exact ⟨store, hstore, hscoped⟩

/-- Nor does any run of turns. -/
theorem scoped_turns (h : s.Scoped) (l : List (Moment × Turn)) : (e.turns s l).Scoped := by
  induction l generalizing s with
  | nil => exact h
  | cons t l ih => exact ih (scoped_turn h t.1 t.2)

/-- No turn changes how long results are kept. -/
theorem defaultTtl_turn (m : Moment) (t : Turn) :
    (e.turn m s t).cache.defaultTtl = s.cache.defaultTtl := by
  cases t with
  | ask c =>
    rw [turn]
    cases hc : e.lookup c with
    | error fault => rw [after_eq_of_fault hc]
    | ok p =>
      obtain ⟨α, codec, compute, -, hafter⟩ := uses_of_lookup hc m s
      rw [hafter]
      exact s.defaultTtl_getOrCompute m codec p.endpoint.scope p.payload compute
  | invalidate r =>
    rw [turn, invalidateQuery]
    split
    · rfl
    · rename_i c hc
      exact (s.cache.perform_keeps (ε := Unit) m (.invalidateOne queryScope (some c.toJson)) ()).2
  | clear pattern => exact (s.cache.perform_keeps (ε := Unit) m (.invalidatePattern pattern) ()).2

/-- Nor does any run of turns. -/
theorem defaultTtl_turns (l : List (Moment × Turn)) :
    (e.turns s l).cache.defaultTtl = s.cache.defaultTtl := by
  induction l generalizing s with
  | nil => rfl
  | cons t l ih => exact ih.trans (defaultTtl_turn t.1 t.2)

end Engine

/-- A statement that is executed is recorded, and gives the rows of the database, or a fault if there
are none. -/
theorem Backend.fetch_eq {σ : Type} (execute : Executor σ) (q : CompiledQuery) (b : Backend σ) :
    b.fetch execute q =
      ((execute q b.database).1.elim (.error .database) .ok,
        ⟨(execute q b.database).2, b.statements ++ [q]⟩) := by
  rw [fetch]
  cases execute q b.database with
  | mk rows database =>
    cases rows with
    | none => rfl
    | some rows => rfl

/-! ## One key of a session -/

namespace Session

variable {σ α : Type} {s s' : Session σ} {codec : Codec α} {scope : String} {payload : Value}
  {t : Nat}

/-- The text that is found under a key is that of its entry, until it expires. -/
theorem text?_eq_some {key text : String} :
    s.cache.text? t key = some text ↔
      ∃ expires, s.stored? key = some ⟨text, expires⟩ ∧ t < expires := by
  rw [ResultCache.text?, stored?]
  cases s.cache.store with
  | none => simp
  | some store => exact Store.text?_eq_some

/-- An entry that can be read is the answer until it expires, and nothing is computed. -/
theorem getOrCompute_of_entry {stored : StoredText} {a : α}
    (hentry : s.stored? (fingerprint scope payload) = some stored) (ht : t < stored.expires)
    (hread : codec.read? stored.text = some a)
    (compute : Backend σ → Except ServiceFault α × Backend σ) :
    (s.getOrCompute { now := t } codec scope payload compute).1 = .ok (.ok (a, true)) ∧
      (s.getOrCompute { now := t } codec scope payload compute).2.backend = s.backend := by
  have h := s.cache.cacheAside { now := t } codec scope (some payload) none compute s.backend
  have hhit := (h.hit_iff a).mpr
    ⟨rfl, _, stored.text, rfl, text?_eq_some.mpr ⟨_, hentry, ht⟩, hread⟩
  exact ⟨hhit, (h.hit a hhit).1⟩

/-- Without an entry, the result is computed once, and it is the answer unless the clock does not let
it be kept. -/
theorem getOrCompute_of_no_entry (hentry : s.stored? (fingerprint scope payload) = none) (t : Nat)
    (codec : Codec α) (compute : Backend σ → Except ServiceFault α × Backend σ) :
    let reply := s.getOrCompute { now := t } codec scope payload compute
    let breaksOff :=
      s.cache.BreaksOff { now := t } codec (some payload) none (compute s.backend).1
    reply.2.backend = (compute s.backend).2 ∧
      (breaksOff → reply.1 = .error ⟨⟩) ∧
      (¬breaksOff → reply.1 = .ok ((compute s.backend).1.map (·, false))) := by
  have h := s.cache.cacheAside { now := t } codec scope (some payload) none compute s.backend
  have hnone (a : α) : ¬s.cache.Finds { now := t } codec scope (some payload) a := by
    rintro ⟨-, key, text, hkey, htext, -⟩
    obtain rfl := Option.some.inj hkey
    obtain ⟨expires, hsome, -⟩ := text?_eq_some.mp htext
    rw [hentry] at hsome
    contradiction
  exact ⟨h.computes hnone, fun hbreaks => h.breaksOff_iff.mpr ⟨hnone, hbreaks⟩, h.answers hnone⟩

/-- What was returned is under its key, with the text it was read from or the one that was kept for
it. -/
theorem stored?_getOrCompute {compute : Backend σ → Except ServiceFault α × Backend σ} {a : α}
    {cached : Bool} (hs : s.cache.store.isSome = true)
    (h : s.getOrCompute { now := t } codec scope payload compute = (.ok (.ok (a, cached)), s'))
    (hread : codec.ReadsBack a) :
    ∃ stored, s'.stored? (fingerprint scope payload) = some stored ∧
      codec.read? stored.text = some a := by
  have hways := s.cache.getsOrComputes { now := t } codec scope (some payload) none compute
    s.backend
  simp only [Session.getOrCompute] at h
  generalize s.cache.getOrCompute { now := t } codec scope (some payload) none compute s.backend =
    reply at hways h
  generalize hkey : ResultCache.key? scope (some payload) = place at hways
  obtain ⟨hreply, rfl⟩ := Prod.mk.inj h
  cases hways with
  | absent hnone =>
    obtain hnone | rfl := hnone
    · rw [hnone] at hs
      contradiction
    · exact nomatch hkey
  | @found key store b hsome hfound =>
    obtain rfl := Option.some.inj hkey
    obtain ⟨rfl, -⟩ := Prod.mk.inj (Except.ok.inj (Except.ok.inj hreply))
    obtain ⟨-, ⟨text, htext, htextread⟩, hstore⟩ := ResultCache.of_lookUp_eq_some hfound
    obtain ⟨expires, hget, -⟩ := Store.text?_eq_some.mp htext
    exact ⟨⟨text, expires⟩, by rw [hstore]; exact hget, htextread⟩
  | failed hsome hnone hcompute => exact nomatch Except.ok.inj hreply
  | @computed key store store' b after kept hsome hnone hcompute hkeeps =>
    obtain rfl := Option.some.inj hkey
    obtain ⟨⟨⟩, rfl, hpair⟩ := map_eq_ok.mp hreply
    obtain ⟨rfl, -⟩ := Prod.mk.inj (Except.ok.inj hpair)
    obtain ⟨text, htext, hread⟩ := hread
    rw [htext] at hkeeps
    cases hkeeps with
    | not hnot => simp at hnot
    | written houtage hlt =>
      refine ⟨⟨text, t + s.cache.defaultTtl⟩, ?_, hread⟩
      exact (Dictionary.get?_insert _ _ _ _).trans (if_pos rfl)

/-- The session without one key. -/
def without (s : Session σ) (key : String) : Session σ :=
  { s with cache := { s.cache with store := s.cache.store.map fun store =>
      ⟨store.entries.erase key⟩ } }

/-- Without one key there is no entry under it, and the other entries are as they were. -/
theorem stored?_without (s : Session σ) (key k : String) :
    (s.without key).stored? k = if key = k then none else s.stored? k := by
  rw [stored?, stored?, without]
  cases s.cache.store with
  | none => simp
  | some store => exact Dictionary.get?_erase _ _ _

/-- A key that is not there need not be removed. -/
theorem without_without (s : Session σ) (key : String) :
    (s.without key).without key = s.without key := by
  have hstore (store : Store) : (⟨(store.entries.erase key).erase key⟩ : Store) =
      ⟨store.entries.erase key⟩ := by
    refine congrArg Store.mk (Dictionary.ext_entries ?_)
    simp [Dictionary.erase]
  simp only [without, Option.map_map, Function.comp_def, hstore]

end Session

/-! ## The entry of a query -/

namespace Engine

variable {σ : Type} {e : Engine σ} {s s' : Session σ} {r r' c c' : QueryRequest} {t : Nat}

/-- The answer with rows, given whether they were kept. -/
def rowsAnswer (p : List Row × Bool) : QueryAnswer := ⟨p.1, ⟨p.1.length, p.2⟩⟩

/-- A request that passes its checks is looked up under the key of its canonical form. -/
theorem query_eq_getOrCompute {compiled : CompiledQuery} (h : e.prepare r = .ok (c, compiled))
    (m : Moment) (s : Session σ) :
    e.query m r s =
      ((s.getOrCompute m Row.codec.list queryScope c.toJson
        (Backend.fetch e.execute compiled)).1.map (Except.map rowsAnswer),
      (s.getOrCompute m Row.codec.list queryScope c.toJson
        (Backend.fetch e.execute compiled)).2) := by
  rw [query, h]
  rfl

/-- A request with the canonical form of one that passes its checks passes them too. -/
theorem prepare_eq_of_canonical_eq {compiled : CompiledQuery}
    (h : e.prepare r = .ok (c, compiled)) (hr' : e.canonical r' = .ok c) :
    e.prepare r' = .ok (c, compiled) :=
  prepare_eq_ok.mpr ⟨hr', (prepare_eq_ok.mp h).2⟩

/-- A removal takes the key of the canonical form from the session, and tells whether there was an
entry. -/
theorem invalidateQuery_eq (hs : s.cache.store.isSome = true) (hr : e.canonical r = .ok c) :
    e.invalidateQuery { now := t } r s =
      (.ok (.ok (s.stored? (queryKey c)).isSome), s.without (queryKey c)) := by
  obtain ⟨store, hstore⟩ := Option.isSome_iff_exists.mp hs
  rw [invalidateQuery, hr, Session.without, Session.stored?]
  simp only [ResultCache.invalidateOne, ResultCache.key?, Option.map_some, hstore]
  rfl

/-- The rows of a query have a text. -/
theorem text?_rows (rows : List Row) :
    Row.codec.list.text? rows = some (Value.array (rows.map Row.toJson)).text := by
  have hencode : rows.mapM Row.codec.encode = some (rows.map Row.toJson) := List.mapM_pure
  exact congrArg (fun values => (values.map Value.array).map Value.text) hencode

/-- What a query answers whose statement is executed at a time, given the rows: these, as new ones,
unless the clock does not let them be kept. -/
def freshAnswer (now ttl : Nat) : Option (List Row) → Checked (Except ServiceFault QueryAnswer)
  | none => .ok (.error .database)
  | some rows =>
    if now + ttl < Store.clockEnd then .ok (.ok ⟨rows, ⟨rows.length, false⟩⟩) else .error ⟨⟩

/-- Without an entry, a query executes its statement once. -/
theorem query_of_no_entry {compiled : CompiledQuery} (h : e.prepare r = .ok (c, compiled))
    (hs : s.cache.store.isSome = true) (hentry : s.stored? (queryKey c) = none) (t : Nat) :
    (e.query { now := t } r s).1 =
        freshAnswer t s.cache.defaultTtl (e.execute compiled s.backend.database).1 ∧
      (e.query { now := t } r s).2.backend =
        ⟨(e.execute compiled s.backend.database).2, s.backend.statements ++ [compiled]⟩ := by
  rw [query_eq_getOrCompute h]
  obtain ⟨hbackend, hbroken, hanswer⟩ := Session.getOrCompute_of_no_entry hentry t Row.codec.list
    (Backend.fetch e.execute compiled)
  rw [Backend.fetch_eq] at hbackend hbroken hanswer
  refine ⟨?_, hbackend⟩
  cases hrows : (e.execute compiled s.backend.database).1 with
  | none =>
    rw [hrows] at hanswer
    have hnot : ¬s.cache.BreaksOff { now := t } Row.codec.list (some c.toJson) none
        (.error .database : Except ServiceFault (List Row)) :=
      fun ⟨_, _, _, _, a, ha, _⟩ => nomatch ha
    exact congrArg (Except.map (Except.map rowsAnswer)) (hanswer hnot)
  | some rows =>
    rw [hrows] at hanswer hbroken
    rw [freshAnswer]
    split
    · rename_i hlt
      have hnot : ¬s.cache.BreaksOff { now := t } Row.codec.list (some c.toJson) none
          (.ok rows : Except ServiceFault (List Row)) :=
        fun ⟨_, _, _, hle, _⟩ => absurd hlt (Nat.not_lt.mpr hle)
      exact congrArg (Except.map (Except.map rowsAnswer)) (hanswer hnot)
    · rename_i hge
      have hbreaks : s.cache.BreaksOff { now := t } Row.codec.list (some c.toJson) none
          (.ok rows : Except ServiceFault (List Row)) :=
        ⟨hs, rfl, rfl, Nat.not_lt.mp hge, rows, rfl, by rw [text?_rows]; rfl⟩
      exact congrArg (Except.map (Except.map rowsAnswer)) (hbroken hbreaks)

/-- Two queries with different canonical forms have different keys, provided that the digest does
not collide on their texts. -/
theorem queryKey_ne {compiled compiled' : CompiledQuery} (hr : e.prepare r = .ok (c, compiled))
    (hr' : e.prepare r' = .ok (c', compiled')) (hp : (Call.query r).Proper)
    (hp' : (Call.query r').Proper)
    (hinj : Set.InjOn Sha256.digest
      {c.toJson.canonicalText.toUTF8.toList, c'.toJson.canonicalText.toUTF8.toList})
    (hne : c' ≠ c) : queryKey c ≠ queryKey c' := by
  intro hkey
  have hc := plain_of_prepare hr hp
  have hc' := plain_of_prepare hr' hp'
  obtain ⟨-, htext⟩ := (fingerprint_eq_iff hinj).mp hkey
  have hjson := hc.canonical_toJson.eq_of_canonicalText hc'.canonical_toJson htext
  exact hne (hc.toJson_inj hc' hjson).symm

/-- A query and a call of another endpoint have different keys. -/
theorem queryKey_ne_of_endpoint {d : Call} {p : Lookup} (h : e.lookup d = .ok p)
    (hd : d.endpoint ≠ .query) : queryKey c ≠ p.key := by
  intro hkey
  obtain ⟨hscope, -⟩ := scope_and_digest_of_fingerprint_eq (p := queryScope) hkey
  refine hd ?_
  rw [← (looksUp_of_lookup h).endpoint_eq]
  exact (Endpoint.scope_inj (a := .query) hscope).symm

/-! ## What a removal removes -/

/-- The entry of the queries with one canonical form, of which `r` is one, was removed from a
session, and no other one. -/
structure Removed (e : Engine σ) (ttl : Nat) (r c : QueryRequest) (s s' : Session σ) : Prop where
  /-- The database is as it was. -/
  backend : s'.backend = s.backend
  /-- There is nothing left to remove. -/
  repeated : ∀ {r' : QueryRequest}, e.canonical r' = .ok c →
    ∀ t : Nat, e.invalidateQuery { now := t } r' s' = (.ok (.ok false), s')
  /-- The next query executes the statement once, and answers with the rows that the database gives,
  as new ones, unless the clock does not let them be kept. -/
  computed : ∀ {r' : QueryRequest}, e.canonical r' = .ok c → ∃ compiled,
    e.prepare r' = .ok (c, compiled) ∧ ∀ t : Nat,
      (e.query { now := t } r' s').1 =
          freshAnswer t ttl (e.execute compiled s'.backend.database).1 ∧
        (e.query { now := t } r' s').2.backend =
          ⟨(e.execute compiled s'.backend.database).2, s'.backend.statements ++ [compiled]⟩
  /-- The entries of queries with other canonical forms are as they were, provided that the digest
  does not collide on the two texts. -/
  otherQueries : ∀ {r' c' : QueryRequest} {compiled : CompiledQuery},
    e.prepare r' = .ok (c', compiled) → c' ≠ c → (Call.query r).Proper → (Call.query r').Proper →
    Set.InjOn Sha256.digest
      {c.toJson.canonicalText.toUTF8.toList, c'.toJson.canonicalText.toUTF8.toList} →
    s'.stored? (queryKey c') = s.stored? (queryKey c')
  /-- The entries of other endpoints are as they were. -/
  otherEndpoints : ∀ {d : Call} {p : Lookup}, e.lookup d = .ok p → d.endpoint ≠ .query →
    s'.stored? p.key = s.stored? p.key

/-- The rows of the queries with one canonical form, of which `r` is one, are kept in a session. -/
structure Keeps (e : Engine σ) (ttl : Nat) (r c : QueryRequest) (rows : List Row) (s : Session σ) :
    Prop where
  /-- They are under the key of the canonical form. -/
  entry : ∃ stored, s.stored? (queryKey c) = some stored
  /-- Until they expire, they are the answer to every query with this canonical form, as kept ones,
  and nothing is executed. -/
  again : ∀ {r' : QueryRequest}, e.canonical r' = .ok c → ∀ t : Nat,
    (∀ stored, s.stored? (queryKey c) = some stored → t < stored.expires) →
    (e.query { now := t } r' s).1 = .ok (.ok ⟨rows, ⟨rows.length, true⟩⟩) ∧
      (e.query { now := t } r' s).2.backend = s.backend
  /-- Every query with this canonical form removes them, and tells that they were there. -/
  removed : ∀ {r' : QueryRequest}, e.canonical r' = .ok c → ∀ t : Nat, ∃ s',
    e.invalidateQuery { now := t } r' s = (.ok (.ok true), s') ∧ e.Removed ttl r c s s'

/-- Without the key of its canonical form, a session lacks the entry of a query and no other one. -/
theorem removed_without {compiled : CompiledQuery} (h : e.prepare r = .ok (c, compiled))
    (hs : s.cache.store.isSome = true) :
    e.Removed s.cache.defaultTtl r c s (s.without (queryKey c)) := by
  have hnone : (s.without (queryKey c)).stored? (queryKey c) = none :=
    (s.stored?_without _ _).trans (if_pos rfl)
  have hsome : (s.without (queryKey c)).cache.store.isSome = true := by
    simpa [Session.without] using hs
  refine {
    backend := rfl
    repeated := fun hr' t => ?_
    computed := fun hr' => ⟨compiled, prepare_eq_of_canonical_eq h hr', fun t => ?_⟩
    otherQueries := fun hr' hne hp hp' hinj => ?_
    otherEndpoints := fun hd hendpoint => ?_ }
  · rw [invalidateQuery_eq hsome hr', hnone, Session.without_without]
    rfl
  · -- The key is gone, so the next lookup of it computes.
    exact query_of_no_entry (prepare_eq_of_canonical_eq h hr') hsome hnone t
  · rw [Session.stored?_without, if_neg (queryKey_ne h hr' hp hp' hinj hne)]
  · rw [Session.stored?_without, if_neg (queryKey_ne_of_endpoint hd hendpoint)]

/-- After a query that was answered, its rows are kept, provided that their text can be read back. -/
theorem keeps_of_query {a : QueryAnswer} (hs : s.cache.store.isSome = true)
    (hr : e.canonical r = .ok c) (hquery : e.query { now := t } r s = (.ok (.ok a), s'))
    (hread : Row.codec.list.ReadsBack a.data) :
    e.Keeps s.cache.defaultTtl r c a.data s' := by
  cases hprepare : e.prepare r with
  | error fault => simp [query, hprepare] at hquery
  | ok p =>
    obtain ⟨c', compiled⟩ := p
    obtain rfl : c' = c := Except.ok.inj ((prepare_eq_ok.mp hprepare).1.symm.trans hr)
    rw [query_eq_getOrCompute hprepare] at hquery
    obtain ⟨hanswer, hsession⟩ := Prod.mk.inj hquery
    obtain ⟨outcome, houtcome, hmap⟩ := map_eq_ok.mp hanswer
    obtain ⟨⟨rows, cached⟩, rfl, rfl⟩ := map_eq_ok.mp hmap
    -- The rows were read from the store or computed; both ways leave a text that reads as them.
    obtain ⟨stored, hentry, hstored⟩ := Session.stored?_getOrCompute hs
      (Prod.ext houtcome hsession) hread
    have hs' : s'.cache.store.isSome = true := by
      obtain ⟨store, hstore, -⟩ := Option.bind_eq_some_iff.mp hentry
      rw [hstore]
      rfl
    have httl : s'.cache.defaultTtl = s.cache.defaultTtl :=
      hsession ▸ s.defaultTtl_getOrCompute { now := t } ..
    rw [← httl]
    refine {
      entry := ⟨stored, hentry⟩
      again := fun hr' t' halive => ?_
      removed := fun hr' t' => ⟨s'.without (queryKey c'), ?_, removed_without hprepare hs'⟩ }
    · obtain ⟨hanswer', hbackend⟩ := Session.getOrCompute_of_entry hentry (halive stored hentry)
        hstored (Backend.fetch e.execute compiled)
      rw [query_eq_getOrCompute (prepare_eq_of_canonical_eq hprepare hr')]
      exact ⟨congrArg (Except.map (Except.map rowsAnswer)) hanswer', hbackend⟩
    · rw [invalidateQuery_eq hs' hr']
      have hsome := congrArg Option.isSome hentry
      exact congrArg (fun removed => (Except.ok (Except.ok removed), _)) hsome

/-- A removal removes the result that it names and no other one. -/
structure RemovesExactly (e : Engine σ) (ttl : Nat) (s : Session σ) : Prop where
  /-- After a query that was answered, its rows are kept until they expire or are removed, provided
  that their text can be read back. -/
  keeps : ∀ {t : Nat} {r c : QueryRequest} {a : QueryAnswer} {s' : Session σ},
    e.canonical r = .ok c → e.query { now := t } r s = (.ok (.ok a), s') →
    Row.codec.list.ReadsBack a.data → e.Keeps ttl r c a.data s'
  /-- The pattern of all scopes leaves nothing, whichever endpoints the entries are of, and does not
  reach the database. -/
  cleared : ∀ t : Nat, (e.clearCache { now := t } everyScope s).2.cache.store = some ∅ ∧
    (e.clearCache { now := t } everyScope s).2.backend = s.backend

/-- After any turns from an empty store, at any times and with any failures of the store, a query
that is answered is answered from the cache until it is removed, a removal removes the result that it
names and no other one, and clearing the cache leaves nothing. -/
theorem removes_exactly (e : Engine σ) (ttl : Nat) (database : σ)
    (l : List (Moment × Turn)) : e.RemovesExactly ttl (e.turns (.start ttl database) l) := by
  have httl : (e.turns (.start ttl database) l).cache.defaultTtl = ttl := defaultTtl_turns l
  have hstart : (Session.start ttl database).Scoped := ⟨∅, rfl, nofun⟩
  obtain ⟨store, hstore, hscoped⟩ := scoped_turns (e := e) hstart l
  -- Every key of the store is one of a result, and so the pattern selects every entry.
  have hall : store.keep (fun entry =>
      !(⟨"analytics:".toList.map .char ++ [.anyText]⟩ : KeyPattern).matchesKey entry.1) = ∅ := by
    refine congrArg Store.mk (Dictionary.ext_entries (List.filter_eq_nil_iff.mpr ?_))
    intro entry hentry
    obtain ⟨endpoint, payload, hkey⟩ := hscoped entry hentry
    rw [hkey, matchesKey_everyScope]
    simp
  refine {
    keeps := fun hr hquery hread =>
      httl ▸ keeps_of_query (Option.isSome_of_eq_some hstore) hr hquery hread
    cleared := fun t => ⟨?_, rfl⟩ }
  simp only [clearCache, ResultCache.invalidatePattern, hstore, KeyPattern.ofString_everyScope,
    Store.deleteMatching]
  rw [hall]

end Engine

/-- The text of a row with the revenue of one channel. -/
def channelText : String := "[\x7b\"channel\":\"iFood\",\"faturamento\":120\x7d]"

/-- The row. -/
@[irreducible] def channelRows : List Row := (Row.codec.list.read? channelText).getD []

/-- The row can be read back. -/
theorem readsBack_channelRows : Row.codec.list.ReadsBack channelRows := by
  have htext : Row.codec.list.text? channelRows = some channelText := by decide +kernel
  have hsome : (Row.codec.list.read? channelText).isSome := by decide +kernel
  obtain ⟨rows, hrows⟩ := Option.isSome_iff_exists.mp hsome
  have hdefined : channelRows = rows := by rw [channelRows, hrows, Option.getD_some]
  exact ⟨channelText, htext, hdefined ▸ hrows⟩

/-- An engine over the restaurant catalog whose database answers every statement with this row. -/
def channelEngine : Engine Unit :=
  { restaurantEngine with execute := fun _ s => (some channelRows, s) }

/-- A query with a filter for the first day is answered; the same query with a range of days gets the
row from the cache a minute later, and removes it, so that it is asked for again. -/
theorem Engine.removes_exactly_newYear : channelRows.length = 1 ∧
    ∃ (c : QueryRequest) (s s' : Session Unit),
      channelEngine.query { now := 10 } revenueByFilter (.start 61 ()) =
          (.ok (.ok ⟨channelRows, ⟨channelRows.length, false⟩⟩), s) ∧
        channelEngine.Keeps 61 revenueByFilter c channelRows s ∧
        (channelEngine.query { now := 70 } revenueByRange s).1 =
          .ok (.ok ⟨channelRows, ⟨channelRows.length, true⟩⟩) ∧
        channelEngine.invalidateQuery { now := 70 } revenueByRange s = (.ok (.ok true), s') ∧
        (channelEngine.query { now := 70 } revenueByFilter s').1 =
          .ok (.ok ⟨channelRows, ⟨channelRows.length, false⟩⟩) := by
  refine ⟨by decide +kernel, ?_⟩
  have hok : (channelEngine.prepare revenueByFilter).isOk := by decide +kernel
  cases hp : channelEngine.prepare revenueByFilter with
  | error fault =>
    rw [hp] at hok
    contradiction
  | ok p =>
    obtain ⟨c, compiled⟩ := p
    have hfilter : channelEngine.canonical revenueByFilter = .ok c := (prepare_eq_ok.mp hp).1
    have hrange : channelEngine.canonical revenueByRange = .ok c := hfilter
    obtain ⟨s, hs⟩ : ∃ s, s = ((Session.start 61 ()).getOrCompute { now := 10 } Row.codec.list
        queryScope c.toJson (Backend.fetch channelEngine.execute compiled)).2 := ⟨_, rfl⟩
    have hnone : (Session.start 61 ()).stored? (queryKey c) = none := rfl
    obtain ⟨-, -, hrows⟩ := Session.getOrCompute_of_no_entry hnone 10 Row.codec.list
      (Backend.fetch channelEngine.execute compiled)
    have hrows := hrows fun ⟨_, _, _, hle, _⟩ => absurd hle (by decide)
    have hquery : channelEngine.query { now := 10 } revenueByFilter (.start 61 ()) =
        (.ok (.ok ⟨channelRows, ⟨channelRows.length, false⟩⟩), s) := by
      rw [query_eq_getOrCompute hp, hrows, hs]
      rfl
    have hkeeps := (channelEngine.removes_exactly 61 () []).keeps hfilter hquery
      readsBack_channelRows
    obtain ⟨s', hremoved, hlost⟩ := hkeeps.removed hrange 70
    obtain ⟨compiled', -, hcomputed⟩ := hlost.computed hfilter
    -- The row was kept at 10 for 61 seconds, so that it is still there at 70.
    obtain ⟨text, htext, -⟩ := readsBack_channelRows
    have hkept := (ResultCache.cacheAside (Session.start 61 ()).cache { now := 10 }
      Row.codec.list queryScope (some c.toJson) none (Backend.fetch channelEngine.execute compiled)
      (Session.start 61 ()).backend).kept channelRows _ text hrows rfl rfl rfl htext (queryKey c) 70
        (by decide)
    have hfound : s.cache.text? 70 (queryKey c) = some text := hs ▸ hkept.trans (if_pos rfl)
    obtain ⟨expires, hentry, hlt⟩ := Session.text?_eq_some.mp hfound
    have hagain := (hkeeps.again hrange 70 fun stored hstored => by
      rw [Option.some.inj (hstored.symm.trans hentry)]
      exact hlt).1
    exact ⟨c, s, s', hquery, hkeeps, hagain, hremoved, (hcomputed 70).1⟩

end SalesQuery
