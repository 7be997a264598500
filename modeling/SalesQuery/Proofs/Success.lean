import Mathlib.Data.List.Forall2

/-!
# What a computation that succeeded has done

Checks of the service either return or stop at their first fault. The lemmas here take a computation
that returned apart into the steps that returned, so that no proof follows the faults.
-/

namespace SalesQuery

variable {ε α β : Type}

/-- A sequence returns if its first step does and the rest does on what the first returned. -/
theorem bind_eq_ok {x : Except ε α} {f : α → Except ε β} {b : β} :
    x >>= f = .ok b ↔ ∃ a, x = .ok a ∧ f a = .ok b := by
  cases x with
  | error e => simp [bind, Except.bind]
  | ok a => simp [bind, Except.bind]

/-- What follows a check returns if the check passes. -/
theorem check_bind_eq_ok {x : Except ε Unit} {f : Unit → Except ε β} {b : β} :
    x >>= f = .ok b ↔ x = .ok () ∧ f () = .ok b := by
  rw [bind_eq_ok]
  exact ⟨fun ⟨_, hx, hf⟩ => ⟨hx, hf⟩, fun ⟨hx, hf⟩ => ⟨(), hx, hf⟩⟩

/-- A mapped step returns the image of what the step returns. -/
theorem map_eq_ok {x : Except ε α} {f : α → β} {b : β} :
    f <$> x = .ok b ↔ ∃ a, x = .ok a ∧ f a = b := by
  cases x with
  | error e => simp [Functor.map, Except.map]
  | ok a => simp [Functor.map, Except.map]

/-- A step with another wording of its fault returns what the step returns. -/
theorem mapError_eq_ok {ε' : Type} {x : Except ε α} {f : ε → ε'} {a : α} :
    x.mapError f = .ok a ↔ x = .ok a := by
  cases x <;> simp [Except.mapError]

/-- Returning returns. -/
theorem pure_eq_ok {a b : α} : (pure a : Except ε α) = .ok b ↔ a = b := by
  simp [pure, Except.pure]

/-- A fault returns nothing. -/
theorem throw_eq_ok {e : ε} {a : α} : (throw e : Except ε α) = .ok a ↔ False := by
  simp [throw, throwThe, MonadExceptOf.throw]

/-- A sequence that starts with a fault returns nothing. -/
theorem throw_bind_eq_ok {e : ε} {f : α → Except ε β} {b : β} :
    (throw e : Except ε α) >>= f = .ok b ↔ False := by
  simp [bind_eq_ok, throw_eq_ok]

/-- A check of each element of a list passes if each of them does. -/
theorem forM_eq_ok {f : α → Except ε Unit} {l : List α} :
    l.forM f = .ok () ↔ ∀ a ∈ l, f a = .ok () := by
  induction l with
  | nil => exact ⟨fun _ => by simp, fun _ => rfl⟩
  | cons a l ih =>
    show (f a >>= fun _ => l.forM f) = .ok () ↔ _
    rw [check_bind_eq_ok, List.forall_mem_cons, ih]

/-- A step for each element of a list returns if each of them does, in order. -/
theorem mapM_eq_ok {f : α → Except ε β} {l : List α} {m : List β} :
    l.mapM f = .ok m ↔ List.Forall₂ (fun a b => f a = .ok b) l m := by
  induction l generalizing m with
  | nil =>
    rw [List.mapM_nil, pure_eq_ok, List.forall₂_nil_left_iff]
    exact eq_comm
  | cons a l ih =>
    rw [List.mapM_cons, bind_eq_ok, List.forall₂_cons_left_iff]
    constructor
    · rintro ⟨b, hb, h⟩
      obtain ⟨bs, hbs, hm⟩ := bind_eq_ok.mp h
      exact ⟨b, bs, hb, ih.mp hbs, (pure_eq_ok.mp hm).symm⟩
    · rintro ⟨b, bs, hb, hbs, rfl⟩
      exact ⟨b, hb, bind_eq_ok.mpr ⟨bs, ih.mpr hbs, rfl⟩⟩

/-- What the steps for the elements of a list returned came from one of them. -/
theorem exists_of_mem_mapM {f : α → Except ε β} {l : List α} {m : List β} (h : l.mapM f = .ok m)
    {b : β} (hb : b ∈ m) : ∃ a ∈ l, f a = .ok b := by
  induction mapM_eq_ok.mp h with
  | nil => contradiction
  | cons hab hrest ih =>
    rcases List.mem_cons.mp hb with rfl | hb
    · exact ⟨_, List.mem_cons_self, hab⟩
    · obtain ⟨a, ha, hf⟩ := ih (mapM_eq_ok.mpr hrest) hb
      exact ⟨a, List.mem_cons_of_mem _ ha, hf⟩

/-- If the steps for the elements of a list returned, the step for each of them did. -/
theorem exists_of_mem_of_mapM {f : α → Except ε β} {l : List α} {m : List β} (h : l.mapM f = .ok m)
    {a : α} (ha : a ∈ l) : ∃ b, f a = .ok b := by
  induction mapM_eq_ok.mp h with
  | nil => contradiction
  | cons hab hrest ih =>
    rcases List.mem_cons.mp ha with rfl | ha
    · exact ⟨_, hab⟩
    · exact ih (mapM_eq_ok.mpr hrest) ha

/-- What the step for an element returned is among what the steps returned. -/
theorem mem_of_mapM {f : α → Except ε β} {l : List α} {m : List β} (h : l.mapM f = .ok m)
    {a : α} (ha : a ∈ l) {b : β} (hb : f a = .ok b) : b ∈ m := by
  induction mapM_eq_ok.mp h with
  | nil => contradiction
  | cons hab hrest ih =>
    rcases List.mem_cons.mp ha with rfl | ha
    · rw [Except.ok.inj (hb.symm.trans hab)]
      exact List.mem_cons_self
    · exact List.mem_cons_of_mem _ (ih (mapM_eq_ok.mpr hrest) ha)

/-- If the steps for a list returned, then with another element in one place they return what the
step for that element does, between what those for the other elements returned. -/
theorem mapM_around {f : α → Except ε β} {before after : List α} {a : α} {m : List β}
    (h : (before ++ a :: after).mapM f = .ok m) :
    ∃ bs as, before.mapM f = .ok bs ∧ after.mapM f = .ok as ∧
      ∀ a', (before ++ a' :: after).mapM f = (fun b => bs ++ b :: as) <$> f a' := by
  induction before generalizing m with
  | nil =>
    rw [List.nil_append, List.mapM_cons] at h
    obtain ⟨b, -, h⟩ := bind_eq_ok.mp h
    obtain ⟨as, has, -⟩ := bind_eq_ok.mp h
    refine ⟨[], as, rfl, has, fun a' => ?_⟩
    rw [List.nil_append, List.mapM_cons, has]
    cases f a' <;> rfl
  | cons c before ih =>
    rw [List.cons_append, List.mapM_cons] at h
    obtain ⟨b, hb, h⟩ := bind_eq_ok.mp h
    obtain ⟨rest, hrest, -⟩ := bind_eq_ok.mp h
    obtain ⟨bs, as, hbs, has, haround⟩ := ih hrest
    refine ⟨b :: bs, as, by rw [List.mapM_cons, hb, hbs]; rfl, has, fun a' => ?_⟩
    rw [List.cons_append, List.mapM_cons, hb, haround]
    cases f a' <;> rfl

/-! ## Results without their faults -/

theorem exists_of_isOk {x : Except ε α} (h : x.isOk) : ∃ a, x = .ok a := by
  cases x with
  | error fault => cases h
  | ok a => exact ⟨a, rfl⟩

theorem toOption_eq_some {x : Except ε α} {a : α} : x.toOption = some a ↔ x = .ok a := by
  cases x <;> simp [Except.toOption]

theorem toOption_bind (x : Except ε α) (f : α → Except ε β) :
    (x >>= f).toOption = x.toOption.bind fun a => (f a).toOption := by
  cases x <;> rfl

theorem toOption_map (x : Except ε α) (f : α → β) : (f <$> x).toOption = x.toOption.map f := by
  cases x <;> rfl

end SalesQuery
