import SalesQuery.Binary64.Arithmetic
import SalesQuery.Cache.Fingerprint
import SalesQuery.Cache.Store
import SalesQuery.Json.Decode

/-!
# The result cache

Results are looked up before they are computed, and kept after. The store may be absent, any of its
methods may fail, and a payload or a result may have no JSON; then results are computed as if nothing
were kept, and no caller notices. Only the counts of hits and misses tell. An overflow is not caught:
it breaks off the call in which it comes up.
-/

namespace SalesQuery

open Json (Value Decoder)

/-- The methods of a store that fail. -/
structure StoreOutage where
  /-- Whether looking up fails. -/
  get : Bool := false
  /-- Whether writing fails. -/
  set : Bool := false
  /-- Whether removing a key fails. -/
  delete : Bool := false
  /-- Whether removing by pattern fails. -/
  deleteMatching : Bool := false
  /-- Whether measuring fails. -/
  info : Bool := false
deriving DecidableEq, Repr, Inhabited

/-- The outer circumstances of a call. -/
structure Moment where
  /-- The time, in seconds. -/
  now : Nat := 0
  /-- The methods of the store that fail. -/
  outage : StoreOutage := {}
deriving DecidableEq, Repr, Inhabited

/-- How results of a type are written to the store and read back. -/
structure Codec (α : Type) where
  /-- The result as JSON, if it has one. -/
  encode : α → Option Value
  /-- Reads a result. -/
  decode : Decoder α

namespace Codec

/-- The text that is kept for a result. -/
def text? {α : Type} (codec : Codec α) (a : α) : Option String := (codec.encode a).map Value.text

/-- The result that a kept text stands for. -/
def read? {α : Type} (codec : Codec α) (text : String) : Option α :=
  (codec.decode.ofText text.toList).toOption

/-- Lists, item by item. -/
def list {α : Type} (codec : Codec α) : Codec (List α) where
  encode l := (l.mapM codec.encode).map .array
  decode := Decoder.list codec.decode

end Codec

/-- A cache of results. -/
structure ResultCache where
  /-- The store, if there is one. -/
  store : Option Store
  /-- How long a result is kept by default, in seconds. -/
  defaultTtl : Nat
  /-- How many results were found, up to a multiple of `2^64`. -/
  hits : UInt64 := 0
  /-- How many results had to be computed although there is a store, up to a multiple of `2^64`. -/
  misses : UInt64 := 0
deriving DecidableEq, Inhabited

/-- What the cache tells about itself. -/
structure CacheStats where
  /-- Whether the store answers. -/
  connected : Bool
  /-- The share of hits, in percent to two decimal places. -/
  hitRate : Binary64
  /-- How many results were found. -/
  hits : UInt64
  /-- How many results had to be computed. -/
  misses : UInt64
  /-- What the store tells. -/
  info : Store.Info
deriving DecidableEq

/-- The figures as JSON. The memory is left out if it is not known. -/
def CacheStats.toJson (s : CacheStats) : Value :=
  let memory := match s.info.memoryUsed with
    | some m => [("memory_used", Value.string m)]
    | none => []
  .ofMembers ([("connected", .bool s.connected), ("hit_rate", .float s.hitRate),
    ("hits", .nat s.hits.toNat), ("misses", .nat s.misses.toNat),
    ("key_count", .nat s.info.keyCount)] ++ memory)

namespace ResultCache

/-- Looks up a text. A lookup that fails changes nothing. -/
def lookUp (m : Moment) (key : String) (s : Store) : Option String × Store :=
  if m.outage.get then (none, s) else s.get m.now key

/-- The key under which the result for a payload is kept, if the payload has a JSON. -/
def key? (scope : String) (payload : Option Value) : Option String :=
  payload.map (fingerprint scope)

/-- Keeps a text, unless there is none or writing fails. -/
def keep (m : Moment) (key : String) (text : Option String) (ttl : Nat) (s : Store) :
    Checked Unit × Store :=
  match text with
  | some text => if m.outage.set then (.ok (), s) else s.set m.now key text ttl
  | none => (.ok (), s)

/-- Returns the result kept for a payload, with `true`; or computes it, with `false`, and keeps it.
The computation may change a state and may fail; a failure is passed on and nothing is kept. Without
a store or a key, the result is computed and nothing is counted. -/
def getOrCompute {α ε σ : Type} (cache : ResultCache) (m : Moment) (codec : Codec α)
    (scope : String) (payload : Option Value) (ttl : Option Nat)
    (compute : σ → Except ε α × σ) (state : σ) :
    Checked (Except ε (α × Bool)) × ResultCache × σ :=
  match cache.store, key? scope payload with
  | some store, some key =>
    let (found, store) := lookUp m key store
    match found.bind codec.read? with
    | some a =>
      (.ok (.ok (a, true)), { cache with store := some store, hits := cache.hits + 1 }, state)
    | none =>
      let cache := { cache with store := some store, misses := cache.misses + 1 }
      match compute state with
      | (.error e, state) => (.ok (.error e), cache, state)
      | (.ok a, state) =>
        let (kept, store) := keep m key (codec.text? a) (ttl.getD cache.defaultTtl) store
        (kept.map fun () => .ok (a, false), { cache with store := some store }, state)
  | _, _ =>
    let (result, state) := compute state
    (.ok (result.map (·, false)), cache, state)

/-- Removes the results whose keys match a pattern, and tells how many. A pattern that cannot be
read removes none. -/
def invalidatePattern (cache : ResultCache) (m : Moment) (pattern : String) : Nat × ResultCache :=
  match cache.store, m.outage.deleteMatching, KeyPattern.ofString pattern with
  | some store, false, .ok pattern =>
    let (deleted, store) := store.deleteMatching pattern
    (deleted, { cache with store := some store })
  | _, _, _ => (0, cache)

/-- Removes the result kept for a payload, and tells whether there was one. -/
def invalidateOne (cache : ResultCache) (m : Moment) (scope : String) (payload : Option Value) :
    Bool × ResultCache :=
  match cache.store, key? scope payload, m.outage.delete with
  | some store, some key, false =>
    let (removed, store) := store.delete key
    (removed, { cache with store := some store })
  | _, _, _ => (false, cache)

/-- How many results were looked up, by the counts. -/
def lookups (cache : ResultCache) : Checked UInt64 :=
  fit64 (cache.hits.toNat + cache.misses.toNat)

/-- The share of hits among lookups, in percent to two decimal places. -/
def hitRate (hits lookups : UInt64) : Binary64 :=
  if lookups = 0 then .zero false
  else
    (.ofInt hits.toNat / .ofInt lookups.toNat * .ofInt 10000 : Binary64).round / .ofInt 100

/-- The figures of the cache. -/
def stats (cache : ResultCache) (m : Moment) : Checked CacheStats × ResultCache :=
  match cache.lookups with
  | .error overflow => (.error overflow, cache)
  | .ok lookups =>
    let rate := hitRate cache.hits lookups
    match cache.store, m.outage.info with
    | some store, false =>
      let (info, store) := store.info m.now
      (.ok ⟨true, rate, cache.hits, cache.misses, info⟩, { cache with store := some store })
    | _, _ => (.ok ⟨false, rate, cache.hits, cache.misses, .unknown⟩, cache)

end ResultCache

end SalesQuery
