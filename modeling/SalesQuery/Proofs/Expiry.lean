import Mathlib.Data.Set.Card
import SalesQuery.Proofs.FirstEntries
import SalesQuery.Proofs.RequestJson
import SalesQuery.Proofs.StoreContents

/-!
# Entries that have expired

An entry that has expired stays in the store until some call drops it. A store in which such entries
are gone at once is `Store.purge now s`, and the two are compared here call by call
(`StoreCall`) and over whole runs. Lookups, writes and measurements never tell them apart, and no
call does to what is alive anything else than it would there. The two removals look at what is
present without asking whether it is alive: they report an entry that has expired as removed, and
this is the only difference (`Store.expiry_seen_by_removals`).
-/

namespace SalesQuery

/-! ## Entries of a dictionary -/

namespace Dictionary

variable {α : Type}

/-- The value of a key is that of the entry with the key. -/
theorem get?_eq_some_iff {d : Dictionary α} {key : String} {a : α} :
    d.get? key = some a ↔ (key, a) ∈ d.entries := by
  have hkeys := nodup_of_keysAscend d.keysAscend
  rw [get?, Option.map_eq_some_iff]
  constructor
  · rintro ⟨entry, hfound, rfl⟩
    obtain ⟨hentry, rfl⟩ := (find?_name_eq_some_iff hkeys).mp hfound
    exact hentry
  · intro h
    exact ⟨(key, a), (find?_name_eq_some_iff hkeys).mpr ⟨h, rfl⟩, rfl⟩

/-- As many entries satisfy a condition as there are keys whose value does. -/
theorem length_filter_entries (d : Dictionary α) (p : String × α → Bool) :
    (d.entries.filter p).length = {key | ∃ a ∈ d.get? key, p (key, a) = true}.ncard := by
  have hnodup : ((d.entries.filter p).map (·.1)).Nodup :=
    (nodup_of_keysAscend d.keysAscend).sublist (List.filter_sublist.map _)
  have hkeys : {key | ∃ a ∈ d.get? key, p (key, a) = true} =
      (((d.entries.filter p).map (·.1)).toFinset : Set String) := by
    ext key
    simp [Option.mem_def, get?_eq_some_iff]
  rw [hkeys, Set.ncard_coe_finset, List.toFinset_card_of_nodup hnodup, List.length_map]

/-- A dictionary has finitely many keys. -/
theorem finite_keys (d : Dictionary α) : {key | (d.get? key).isSome = true}.Finite := by
  refine (d.entries.map (·.1)).finite_toSet.subset fun key hkey => ?_
  obtain ⟨a, ha⟩ := Option.isSome_iff_exists.mp hkey
  exact List.mem_map_of_mem (f := (·.1)) (get?_eq_some_iff.mp ha)

/-- Dictionaries with the same values are equal. -/
theorem ext_get? {d e : Dictionary α} (h : ∀ key, d.get? key = e.get? key) : d = e := by
  have hnodup (d : Dictionary α) : d.entries.Nodup :=
    (nodup_of_keysAscend d.keysAscend).of_map
  have hmem (entry : String × α) : entry ∈ d.entries ↔ entry ∈ e.entries := by
    rw [← get?_eq_some_iff, ← get?_eq_some_iff, h]
  have hperm : d.entries.Perm e.entries :=
    (List.perm_ext_iff_of_nodup (hnodup d) (hnodup e)).mpr hmem
  exact ext_entries (Json.Value.eq_of_perm_of_keysAscend d.keysAscend e.keysAscend hperm)

end Dictionary

/-! ## Calls -/

/-- A call of the store. -/
inductive StoreCall where
  /-- Looks up the text under a key. -/
  | get (key : String)
  /-- Keeps a text under a key for some time. -/
  | set (key text : String) (ttl : Nat)
  /-- Removes the entry under a key. -/
  | delete (key : String)
  /-- Removes the entries whose keys match a pattern. -/
  | deleteMatching (pattern : String)
  /-- Measures the store. -/
  | info
deriving DecidableEq, Repr

/-- What a call answers. -/
inductive StoreAnswer where
  /-- The text that was looked up, if it was found. -/
  | text (found : Option String)
  /-- The text is kept. -/
  | done
  /-- The clock does not reach the time at which the text would expire. -/
  | brokenOff
  /-- Whether an entry was removed. -/
  | removed (found : Bool)
  /-- The number of entries that were removed. -/
  | deleted (count : Nat)
  /-- The pattern cannot be read. -/
  | refused (fault : UnclosedClass)
  /-- What was measured. -/
  | measured (info : Store.Info)
deriving DecidableEq, Repr

namespace Store

/-- The answer to a call, and the store after it. -/
def perform (now : Nat) (s : Store) : StoreCall → StoreAnswer × Store
  | .get key => (.text (s.get now key).1, (s.get now key).2)
  | .set key text ttl =>
    match s.set now key text ttl with
    | (.ok (), s) => (.done, s)
    | (.error _, s) => (.brokenOff, s)
  | .delete key => (.removed (s.delete key).1, (s.delete key).2)
  | .deleteMatching pattern =>
    match KeyPattern.ofString pattern with
    | .error fault => (.refused fault, s)
    | .ok pattern => (.deleted (s.deleteMatching pattern).1, (s.deleteMatching pattern).2)
  | .info => (.measured (s.info now).1, (s.info now).2)

/-- The store after calls, each at its time. -/
def after (calls : List (Nat × StoreCall)) (s : Store) : Store :=
  calls.foldl (fun s call => (s.perform call.1 call.2).2) s

/-- The store after calls, where every call finds the entries that have expired gone. -/
def afterLive (calls : List (Nat × StoreCall)) (s : Store) : Store :=
  calls.foldl (fun s call => ((s.purge call.1).perform call.1 call.2).2) s

/-- An entry under the key has expired and is still there. -/
def Leftover (now : Nat) (s : Store) (key : String) : Prop :=
  ∃ stored, s.entries.get? key = some stored ∧ stored.expires ≤ now

end Store

/-- The call removes an entry that has expired. -/
def StoreCall.Meets (now : Nat) (s : Store) : StoreCall → Prop
  | .delete key => s.Leftover now key
  | .deleteMatching pattern =>
    ∃ p, KeyPattern.ofString pattern = .ok p ∧
      ∃ key, s.Leftover now key ∧ p.matchesKey key = true
  | _ => False

namespace Store

variable {now t : Nat}

/-! ## What is alive -/

/-- The same is alive in two stores if the same is alive under every key. -/
theorem purge_eq_purge {s s' : Store}
    (h : ∀ key, ((s.entries.get? key).filter fun stored => t < stored.expires) =
      (s'.entries.get? key).filter fun stored => t < stored.expires) :
    s.purge t = s'.purge t := by
  have hentries : (s.purge t).entries = (s'.purge t).entries := by
    refine Dictionary.ext_get? fun key => ?_
    rw [get?_purge, get?_purge, h]
  generalize s.purge t = live at hentries
  generalize s'.purge t = live' at hentries
  obtain ⟨entries⟩ := live
  obtain ⟨entries'⟩ := live'
  exact congrArg Store.mk hentries

/-- What is alive later was alive before. -/
theorem purge_purge (h : now ≤ t) (s : Store) : (s.purge now).purge t = s.purge t :=
  purge_eq_purge (filter_get?_purge h s)

/-- Two conditions may be applied in either order. -/
theorem keep_comm (s : Store) (p q : String × StoredText → Bool) :
    (s.keep p).keep q = (s.keep q).keep p :=
  congrArg Store.mk (Dictionary.ext_entries (List.filter_comm ..))

/-- Entries that have expired do not matter to a condition on what is alive later. -/
theorem purge_keep_purge (h : now ≤ t) (s : Store) (p : String × StoredText → Bool) :
    ((s.purge now).keep p).purge t = (s.keep p).purge t :=
  calc ((s.purge now).keep p).purge t
    _ = ((s.keep p).purge now).purge t := congrArg (purge t) (keep_comm ..)
    _ = (s.keep p).purge t := purge_purge h _

/-- Looking up drops nothing that is alive. -/
theorem purge_get (h : now ≤ t) (s : Store) (key : String) :
    (s.get now key).2.purge t = s.purge t :=
  purge_eq_purge (filter_get?_get h s key)

/-- Writing drops the entries that have expired itself. -/
theorem set_purge (now : Nat) (s : Store) (key text : String) (ttl : Nat) :
    (s.purge now).set now key text ttl = s.set now key text ttl := by
  rw [set, set, purge_purge le_rfl]

/-- Dropping the entries that have expired before a call changes nothing that is alive after it. -/
theorem purge_perform (h : now ≤ t) (s : Store) (c : StoreCall) :
    ((s.purge now).perform now c).2.purge t = (s.perform now c).2.purge t := by
  cases c with
  | get key =>
    calc ((s.purge now).get now key).2.purge t
      _ = (s.purge now).purge t := purge_get h _ key
      _ = s.purge t := purge_purge h s
      _ = (s.get now key).2.purge t := (purge_get h s key).symm
  | set key text ttl => rw [perform, perform, set_purge]
  | delete key => exact purge_keep_purge h s _
  | deleteMatching pattern =>
    rw [perform, perform]
    cases KeyPattern.ofString pattern with
    | error fault => exact purge_purge h s
    | ok pattern => exact purge_keep_purge h s _
  | info =>
    have hinfo : ((s.purge now).info now).2 = (s.info now).2 := purge_purge le_rfl s
    exact congrArg (purge t) hinfo

/-- What is alive after calls is what is alive if entries that have expired are gone at once. -/
theorem purge_after {calls : List (Nat × StoreCall)}
    (hascend : (calls.map (·.1) ++ [now]).Pairwise (· ≤ ·)) (s : Store) :
    (s.after calls).purge now = (s.afterLive calls).purge now := by
  induction calls using List.reverseRecOn generalizing now with
  | nil => rfl
  | append_singleton calls call ih =>
    obtain ⟨time, c⟩ := call
    rw [List.map_append, List.map_singleton] at hascend
    obtain ⟨hearlier, -, hnow⟩ := List.pairwise_append.mp hascend
    have htime : time ≤ now := hnow time (by simp) now (by simp)
    -- What is alive before the last call decides what is alive after it.
    rw [after, afterLive, List.foldl_concat, List.foldl_concat, ← after, ← afterLive]
    calc ((s.after calls).perform time c).2.purge now
      _ = (((s.after calls).purge time).perform time c).2.purge now :=
        (purge_perform htime _ c).symm
      _ = (((s.afterLive calls).purge time).perform time c).2.purge now := by rw [ih hearlier]

/-! ## What is told of entries that have expired -/

section Answers

variable {s : Store} {key : String} {pattern : KeyPattern}

/-- Under a key is an entry that is found, or one that has expired. -/
theorem isSome_get?_iff (now : Nat) :
    (s.entries.get? key).isSome = true ↔
      (s.text? now key).isSome = true ∨ s.Leftover now key := by
  rw [text?_eq, Leftover]
  cases s.entries.get? key with
  | none => simp
  | some stored =>
    by_cases hlt : now < stored.expires
    · simp [hlt, Option.filter_some]
    · simp [hlt, Option.filter_some, Nat.le_of_not_lt hlt]

/-- What is found has not expired. -/
theorem not_leftover_of_text? (h : (s.text? now key).isSome = true) : ¬ s.Leftover now key := by
  rintro ⟨stored, hstored, hexpired⟩
  rw [text?_eq, hstored] at h
  simp [Nat.not_lt.mpr hexpired, Option.filter_some] at h

/-- Once the entries that have expired are gone, there is an entry where one is found. -/
theorem isSome_get?_purge_iff :
    ((s.purge now).entries.get? key).isSome = true ↔ (s.text? now key).isSome = true := by
  rw [get?_purge, text?_eq, Option.isSome_map]

/-- As many entries are removed as there are keys that match. -/
theorem deleteMatching_fst (s : Store) (pattern : KeyPattern) :
    (s.deleteMatching pattern).1 =
      {key | (s.entries.get? key).isSome = true ∧ pattern.matchesKey key = true}.ncard := by
  have hsplit := List.length_eq_length_filter_add (l := s.entries.entries)
    fun entry => pattern.matchesKey entry.1
  have hkeys : {key | (s.entries.get? key).isSome = true ∧ pattern.matchesKey key = true} =
      {key | ∃ stored ∈ s.entries.get? key, pattern.matchesKey key = true} := by
    ext key
    simp [Option.isSome_iff_exists]
  rw [hkeys, ← Dictionary.length_filter_entries s.entries fun entry => pattern.matchesKey entry.1]
  simp only [deleteMatching, keep]
  omega

/-- The number counts the keys that are found, and the keys of entries that have expired. -/
theorem deleteMatching_fst_eq_add (now : Nat) (s : Store) (pattern : KeyPattern) :
    (s.deleteMatching pattern).1 =
      {key | (s.text? now key).isSome = true ∧ pattern.matchesKey key = true}.ncard +
        {key | s.Leftover now key ∧ pattern.matchesKey key = true}.ncard := by
  have hsplit : {key | (s.entries.get? key).isSome = true ∧ pattern.matchesKey key = true} =
      {key | (s.text? now key).isSome = true ∧ pattern.matchesKey key = true} ∪
        {key | s.Leftover now key ∧ pattern.matchesKey key = true} := by
    ext key
    simp only [Set.mem_ofPred_eq, Set.mem_union, isSome_get?_iff now, or_and_right]
  have hdisjoint : Disjoint {key | (s.text? now key).isSome = true ∧ pattern.matchesKey key = true}
      {key | s.Leftover now key ∧ pattern.matchesKey key = true} :=
    Set.disjoint_left.mpr fun key hfound hleft => not_leftover_of_text? hfound.1 hleft.1
  have hfound : {key | (s.text? now key).isSome = true ∧ pattern.matchesKey key = true}.Finite :=
    s.entries.finite_keys.subset fun key h => (isSome_get?_iff now).mpr (.inl h.1)
  have hleft : {key | s.Leftover now key ∧ pattern.matchesKey key = true}.Finite :=
    s.entries.finite_keys.subset fun key h => (isSome_get?_iff now).mpr (.inr h.1)
  rw [deleteMatching_fst, hsplit, Set.ncard_union_eq hdisjoint hfound hleft]

/-- Removing a key answers the same without the entries that have expired, unless one of them is
under the key. -/
theorem delete_purge_fst_iff :
    (s.delete key).1 = ((s.purge now).delete key).1 ↔ ¬ s.Leftover now key := by
  rw [Bool.eq_iff_iff, delete, delete, isSome_get?_iff now, isSome_get?_purge_iff]
  constructor
  · intro h hleft
    exact not_leftover_of_text? (h.mp (.inr hleft)) hleft
  · exact or_iff_left

/-- Removing the keys that match answers the same without the entries that have expired, unless the
key of one of them matches. -/
theorem deleteMatching_purge_fst_iff :
    (s.deleteMatching pattern).1 = ((s.purge now).deleteMatching pattern).1 ↔
      ¬ ∃ key, s.Leftover now key ∧ pattern.matchesKey key = true := by
  have hfinite : {key | s.Leftover now key ∧ pattern.matchesKey key = true}.Finite :=
    s.entries.finite_keys.subset fun key h => (isSome_get?_iff now).mpr (.inr h.1)
  rw [deleteMatching_fst_eq_add now, deleteMatching_fst (s.purge now)]
  simp only [isSome_get?_purge_iff, Nat.add_eq_left]
  rw [Set.ncard_eq_zero hfinite, Set.eq_empty_iff_forall_notMem, not_exists]
  rfl

/-- A call is answered as if the entries that have expired were gone, unless it removes one. -/
theorem perform_purge_fst_iff {c : StoreCall} :
    (s.perform now c).1 = ((s.purge now).perform now c).1 ↔ ¬ c.Meets now s := by
  cases c with
  | get key =>
    have hsame : (s.get now key).1 = ((s.purge now).get now key).1 :=
      (text?_purge le_rfl s key).symm
    exact iff_of_true (congrArg StoreAnswer.text hsame) id
  | set key text ttl =>
    rw [perform, perform, set_purge]
    exact iff_of_true rfl id
  | delete key =>
    simp only [perform, StoreAnswer.removed.injEq]
    exact delete_purge_fst_iff
  | deleteMatching pattern =>
    rw [perform, perform, StoreCall.Meets]
    cases KeyPattern.ofString pattern with
    | error fault => simp
    | ok pattern =>
      simp only [StoreAnswer.deleted.injEq, deleteMatching_purge_fst_iff]
      simp
  | info =>
    have hsame : (s.info now).1 = ((s.purge now).info now).1 := by
      rw [info, info, purge_purge le_rfl]
    exact iff_of_true (congrArg StoreAnswer.measured hsame) id

end Answers

/-- What tells a store from one in which every entry is gone once it has expired. -/
structure TellsExpiry (now : Nat) (s live : Store) : Prop where
  /-- A call is answered in another way exactly if it removes an entry that has expired. -/
  answer : ∀ c : StoreCall, (s.perform now c).1 = (live.perform now c).1 ↔ ¬ c.Meets now s
  /-- After every call the same is alive. -/
  alive : ∀ c t, now ≤ t → (s.perform now c).2.purge t = (live.perform now c).2.purge t
  /-- Removing a key reports an entry that is found or that has expired. -/
  delete : ∀ key, (s.delete key).1 = true ↔
    (live.text? now key).isSome = true ∨ s.Leftover now key
  /-- Removing the keys that match counts the entries that are found, and those that have
  expired. -/
  deleteMatching : ∀ pattern : KeyPattern, (s.deleteMatching pattern).1 =
    {key | (live.text? now key).isSome = true ∧ pattern.matchesKey key = true}.ncard +
      {key | s.Leftover now key ∧ pattern.matchesKey key = true}.ncard

/-- After any calls in the order of their times, entries that have expired are seen by the removals
that meet one, and by nothing else. -/
theorem expiry_seen_by_removals {calls : List (Nat × StoreCall)}
    (hascend : (calls.map (·.1) ++ [now]).Pairwise (· ≤ ·)) (s : Store) :
    TellsExpiry now (s.after calls) ((s.afterLive calls).purge now) := by
  rw [← purge_after hascend]
  generalize s.after calls = s
  have hfound (key : String) : (s.purge now).text? now key = s.text? now key :=
    text?_purge le_rfl s key
  constructor
  case answer => exact fun c => perform_purge_fst_iff
  case alive => exact fun c t h => (purge_perform h s c).symm
  case delete =>
    intro key
    rw [hfound]
    exact isSome_get?_iff now
  case deleteMatching =>
    intro pattern
    simp only [hfound]
    exact deleteMatching_fst_eq_add now s pattern

/-- After these calls an entry that has expired is still there. -/
theorem expiry_seen_by_removals_unread :
    TellsExpiry 7
      (empty.after [(0, .set "a" "x" 9), (2, .set "k" "v" 0), (2, .get "a")])
      ((empty.afterLive [(0, .set "a" "x" 9), (2, .set "k" "v" 0), (2, .get "a")]).purge 7) :=
  expiry_seen_by_removals (by decide) empty

/-- A text that is kept for no time is never found. Still, removing its key reports it, and so does
removing every key, where nothing would be reported if the entry were gone. -/
theorem removals_report_expired :
    let s := (empty.set 0 "k" "v" 0).2
    (s.perform 0 (.get "k")).1 = .text none ∧
      (s.perform 0 (.delete "k")).1 = .removed true ∧
      ((s.purge 0).perform 0 (.delete "k")).1 = .removed false ∧
      (s.perform 0 (.deleteMatching "*")).1 = .deleted 1 ∧
      ((s.purge 0).perform 0 (.deleteMatching "*")).1 = .deleted 0 := by
  have hread : KeyPattern.ofString "*" = .ok ⟨[.anyText]⟩ := by cbv
  have hmatch : KeyPattern.matchesKey ⟨[.anyText]⟩ "k" = true := by cbv
  have hpresent : (empty.set 0 "k" "v" 0).2.entries.entries = [("k", ⟨"v", 0⟩)] := by decide
  have hgone : ((empty.set 0 "k" "v" 0).2.purge 0).entries.entries = [] := by decide
  refine ⟨by decide, by decide, by decide, ?_, ?_⟩
  · rw [perform, hread]
    simp [deleteMatching, keep, hpresent, hmatch]
  · rw [perform, hread]
    simp [deleteMatching, hgone]

end Store

end SalesQuery
