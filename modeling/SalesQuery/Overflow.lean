/-!
# Overflow

Counts are held in 64 bits, and the clock ends. A result that does not fit where it is held is not
brought back into range: the call in which it comes up breaks off, and what the call has done up to
there stays done.
-/

namespace SalesQuery

/-- A result does not fit where it is held. -/
structure Overflow where
deriving DecidableEq, Repr

/-- What a call gives unless it breaks off. -/
abbrev Checked (α : Type) := Except Overflow α

/-- A number in 64 bits, if it fits. -/
def fit64 (n : Nat) : Checked UInt64 :=
  if n < UInt64.size then .ok (UInt64.ofNat n) else .error ⟨⟩

theorem fit64_eq_ok {n : Nat} {m : UInt64} : fit64 n = .ok m ↔ m.toNat = n := by
  rw [fit64]
  split
  · rename_i hlt
    rw [Except.ok.injEq]
    constructor
    · rintro rfl
      exact UInt64.toNat_ofNat_of_lt hlt
    · rintro rfl
      exact UInt64.ofNat_toNat
  · rename_i hge
    constructor
    · nofun
    · rintro rfl
      exact absurd m.toNat_lt_size hge

theorem fit64_eq_error {n : Nat} {overflow : Overflow} :
    fit64 n = .error overflow ↔ UInt64.size ≤ n := by
  rw [fit64]
  split
  · rename_i hlt
    exact ⟨nofun, fun hge => absurd hlt (Nat.not_lt.mpr hge)⟩
  · rename_i hge
    exact ⟨fun _ => Nat.not_lt.mp hge, fun _ => rfl⟩

end SalesQuery
