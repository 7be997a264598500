import SalesQuery.Cache.KeyPattern
import SalesQuery.Dictionary
import SalesQuery.Overflow

/-!
# The store

A store keeps texts under keys until they expire. An entry that has expired is not found; it is
removed when it is looked up, when another entry is written, and when the store is measured. An
entry cannot be written if the clock does not reach the time of its expiry.
-/

namespace SalesQuery

/-- A text with the time at which it expires. -/
structure StoredText where
  /-- The text. -/
  text : String
  /-- The first moment at which the text is no longer found. -/
  expires : Nat
deriving DecidableEq, Repr

/-- Texts under keys. -/
structure Store where
  /-- The entries, those that have expired among them. -/
  entries : Dictionary StoredText
deriving DecidableEq

namespace Store

/-- The store without entries. -/
def empty : Store := ⟨∅⟩

instance : EmptyCollection Store := ⟨empty⟩

instance : Inhabited Store := ⟨empty⟩

/-- The entries of a dictionary that satisfy a condition. -/
def keep (p : String × StoredText → Bool) (s : Store) : Store :=
  ⟨⟨s.entries.entries.filter p, s.entries.keysAscend.filter _⟩⟩

/-- The store without the entries that have expired. -/
def purge (now : Nat) (s : Store) : Store := s.keep fun entry => now < entry.2.expires

/-- The text under a key. An entry that has expired is removed. -/
def get (now : Nat) (key : String) (s : Store) : Option String × Store :=
  match s.entries.get? key with
  | none => (none, s)
  | some stored =>
    if now < stored.expires then (some stored.text, s) else (none, ⟨s.entries.erase key⟩)

/-- The number of seconds that the clock counts: as many as an integer of 64 bits with a sign. -/
def clockEnd : Nat := Nat.pow 2 63

/-- The time at which something kept for some seconds expires. -/
def expiry (now ttl : Nat) : Checked Nat :=
  if now + ttl < clockEnd then .ok (now + ttl) else .error ⟨⟩

/-- Keeps a text under a key for some time. Entries that have expired are removed before the time of
expiry is known. -/
def set (now : Nat) (key text : String) (ttl : Nat) (s : Store) : Checked Unit × Store :=
  let live := s.purge now
  match expiry now ttl with
  | .ok expires => (.ok (), ⟨live.entries.insert key ⟨text, expires⟩⟩)
  | .error overflow => (.error overflow, live)

/-- Removes the entry under a key, and tells whether there was one. -/
def delete (key : String) (s : Store) : Bool × Store :=
  ((s.entries.get? key).isSome, ⟨s.entries.erase key⟩)

/-- Removes the entries whose keys match, and tells how many there were. -/
def deleteMatching (pattern : KeyPattern) (s : Store) : Nat × Store :=
  let kept := s.keep fun entry => !pattern.matchesKey entry.1
  (s.entries.entries.length - kept.entries.entries.length, kept)

/-- What a store tells about itself. -/
structure Info where
  /-- The number of keys. -/
  keyCount : Nat
  /-- The memory used, if it is known. -/
  memoryUsed : Option String
deriving DecidableEq, Repr

/-- Nothing is known. -/
def Info.unknown : Info := ⟨0, none⟩

/-- Counts the entries and the bytes of their keys and texts, without those that have expired. -/
def info (now : Nat) (s : Store) : Info × Store :=
  let live := s.purge now
  let bytes := live.entries.entries.foldl
    (fun n entry => n + entry.1.utf8ByteSize + entry.2.text.utf8ByteSize) 0
  (⟨live.entries.entries.length, some (toString bytes ++ "B")⟩, live)

end Store

end SalesQuery
