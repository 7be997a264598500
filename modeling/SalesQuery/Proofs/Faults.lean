import SalesQuery.Proofs.Success

/-!
# Which faults a computation can stop at

The checks of the service stop at their first fault. What the fault says about the input is read off
here without following the checks that passed: `FaultsOnly p x` states that `x` stops at faults with
the property `p` only, and holds of a sequence if it holds of its steps. `forM_eq_error` tells where
a check of each element of a list stops.
-/

namespace SalesQuery

variable {ε ε' α β : Type} {p : ε → Prop}

/-- A computation that stops at a fault stops at one with a property. -/
def FaultsOnly (p : ε → Prop) (x : Except ε α) : Prop := ∀ e, x = .error e → p e

namespace FaultsOnly

/-- What returns stops at no fault. -/
theorem ok (a : α) : FaultsOnly p (.ok a) := nofun

/-- A fault that has the property is no other. -/
theorem error {e : ε} (h : p e) : FaultsOnly p (.error e : Except ε α) := by
  intro e' he
  obtain rfl := Except.error.inj he
  exact h

/-- A sequence stops where one of its steps does. -/
theorem bind {x : Except ε α} {f : α → Except ε β} (hx : FaultsOnly p x)
    (hf : ∀ a, x = .ok a → FaultsOnly p (f a)) : FaultsOnly p (x >>= f) := by
  cases x with
  | error e => exact error (hx e rfl)
  | ok a => exact hf a rfl

/-- A mapped step stops where the step does. -/
theorem map {x : Except ε α} {f : α → β} (hx : FaultsOnly p x) : FaultsOnly p (f <$> x) := by
  cases x with
  | error e => exact error (hx e rfl)
  | ok a => exact ok (f a)

/-- A step with another wording of its faults stops where the step does. -/
theorem mapError {q : ε' → Prop} {x : Except ε α} {f : ε → ε'}
    (hx : FaultsOnly (fun e => q (f e)) x) : FaultsOnly q (x.mapError f) := by
  cases x with
  | error e => exact error (hx e rfl)
  | ok a => exact ok a

/-- The steps for the elements of a list stop where one of them does. -/
theorem mapM {f : α → Except ε β} {l : List α} (h : ∀ a ∈ l, FaultsOnly p (f a)) :
    FaultsOnly p (l.mapM f) := by
  induction l with
  | nil => exact ok []
  | cons a l ih =>
    obtain ⟨ha, hl⟩ := List.forall_mem_cons.mp h
    rw [List.mapM_cons]
    exact ha.bind fun b _ => (ih hl).bind fun bs _ => ok (b :: bs)

/-- The checks of the elements of a list stop where one of them does. -/
theorem forM {f : α → Except ε Unit} {l : List α} (h : ∀ a ∈ l, FaultsOnly p (f a)) :
    FaultsOnly p (l.forM f) := by
  induction l with
  | nil => exact ok ()
  | cons a l ih =>
    obtain ⟨ha, hl⟩ := List.forall_mem_cons.mp h
    exact ha.bind fun _ _ => ih hl

/-- The check of an optional part stops where that of the part does. -/
theorem forM_option {f : α → Except ε Unit} {o : Option α} (h : ∀ a ∈ o, FaultsOnly p (f a)) :
    FaultsOnly p (o.forM f) := by
  cases o with
  | none => exact ok ()
  | some a => exact h a rfl

/-- The step for an optional part stops where that for the part does. -/
theorem mapM_option {f : α → Except ε β} {o : Option α} (h : ∀ a ∈ o, FaultsOnly p (f a)) :
    FaultsOnly p (o.mapM f) := by
  cases o with
  | none => exact ok none
  | some a => exact (h a rfl).map

end FaultsOnly

/-- The checks of the elements of a list stop at the first that does not pass. -/
theorem forM_eq_error {f : α → Except ε Unit} {before after : List α} {a : α} {e : ε}
    (hbefore : ∀ b ∈ before, f b = .ok ()) (ha : f a = .error e) :
    (before ++ a :: after).forM f = .error e := by
  induction before with
  | nil =>
    show (f a >>= fun _ => after.forM f) = _
    rw [ha]
    rfl
  | cons b before ih =>
    obtain ⟨hb, hrest⟩ := List.forall_mem_cons.mp hbefore
    show (f b >>= fun _ => (before ++ a :: after).forM f) = _
    rw [hb]
    exact ih hrest

end SalesQuery
