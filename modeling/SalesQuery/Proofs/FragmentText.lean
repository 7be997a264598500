import SalesQuery.Sql.Fragment
import SalesQuery.Proofs.PlaceholderText

/-!
# Placeholders of rendered fragments

Rendering numbers the bound scalars of a statement from left to right. The numbers can be read off
the text again if its SQL has no dollar sign and never goes on with a digit right after a scalar
(`Fragment.Spaced`); then the placeholders of the text are `$1` to `$k` for its `k` parameters
(`CompiledQuery.aligned_ofFragments`).
-/

namespace SalesQuery

/-! ## Texts without dollar signs -/

/-- A text without a dollar sign. -/
def DollarFree (s : String) : Prop := '$' ∉ s.toList

instance (s : String) : Decidable (DollarFree s) := inferInstanceAs (Decidable (¬_))

/-- A text has no dollar sign if it is none of its characters. -/
theorem dollarFree_ofList {l : List Char} (h : '$' ∉ l) : DollarFree (String.ofList l) := by
  rwa [DollarFree, String.toList_ofList]

/-- Two texts in a row have no dollar sign if neither has. -/
theorem dollarFree_append {s t : String} : DollarFree (s ++ t) ↔ DollarFree s ∧ DollarFree t := by
  rw [DollarFree, String.toList_append, List.mem_append, not_or]
  rfl

/-- Texts in a row have no dollar sign if none of them has. -/
theorem dollarFree_join {l : List String} (h : ∀ s ∈ l, DollarFree s) :
    DollarFree (String.join l) := by
  rw [DollarFree, String.toList_join, List.mem_flatMap]
  rintro ⟨s, hs, hc⟩
  exact h s hs hc

/-- Texts with a separator between them have no dollar sign if none of them has. -/
theorem dollarFree_intercalate {separator : String} (hsep : DollarFree separator) {l : List String}
    (h : ∀ s ∈ l, DollarFree s) : DollarFree (separator.intercalate l) := by
  rw [DollarFree, String.toList_intercalate]
  induction l with
  | nil => simp
  | cons s rest ih =>
    obtain ⟨hs, hrest⟩ := List.forall_mem_cons.mp h
    cases rest with
    | nil => simpa using show '$' ∉ s.toList from hs
    | cons t rest =>
      rw [List.map_cons, List.map_cons, List.intercalate_cons_cons, ← List.map_cons,
        List.mem_append, List.mem_append, not_or, not_or]
      exact ⟨⟨hs, hsep⟩, ih hrest⟩

/-- A written natural number has no dollar sign. -/
theorem dollarFree_repr (n : Nat) : DollarFree n.repr := by
  intro h
  rw [Nat.toList_repr] at h
  exact absurd (Nat.isDigit_of_mem_toDigits (by decide) (by decide) h) (by decide)

/-- A written integer has no dollar sign. -/
theorem dollarFree_toString_int (n : Int) : DollarFree (toString n) := by
  cases n with
  | ofNat n => exact dollarFree_repr n
  | negSucc n => exact dollarFree_append.mpr ⟨by decide, dollarFree_repr (n + 1)⟩

/-- Text before another one decides what it starts with, unless it is empty. -/
theorem startsWithDigit_append {l m : List Char} (hl : startsWithDigit l = false)
    (hm : startsWithDigit m = false) : startsWithDigit (l ++ m) = false := by
  cases l with
  | nil => exact hm
  | cons c l => exact hl

namespace Fragment

/-! ## Spacing -/

/-- Whether the text of the fragments starts with a digit, whatever the scalars are numbered. -/
def opensWithDigit : List Fragment → Bool
  | [] => false
  | .sql text :: rest => if text = "" then opensWithDigit rest else startsWithDigit text.toList
  | .bind _ :: _ => false

/-- No text of the fragments has a dollar sign, and none goes on with a digit after a scalar. -/
def Spaced : List Fragment → Prop
  | [] => True
  | .sql text :: rest => DollarFree text ∧ Spaced rest
  | .bind _ :: rest => opensWithDigit rest = false ∧ Spaced rest

/-- A single text decides how it opens. -/
theorem opensWithDigit_singleton (text : String) :
    opensWithDigit [.sql text] = startsWithDigit text.toList := by
  rw [opensWithDigit]
  split
  · rename_i h
    rw [h]
    rfl
  · rfl

/-- A text that starts with another one opens in the same way. -/
theorem opensWithDigit_sql_append {text : String} (hne : text ≠ "")
    (h : startsWithDigit text.toList = false) (more : String) (rest : List Fragment) :
    opensWithDigit (.sql (text ++ more) :: rest) = false := by
  obtain ⟨c, cs, hcs⟩ := List.exists_cons_of_ne_nil (mt String.toList_eq_nil_iff.mp hne)
  have hlist : (text ++ more).toList = c :: (cs ++ more.toList) := by
    rw [String.toList_append, hcs, List.cons_append]
  have hmore : text ++ more ≠ "" := by
    intro hempty
    rw [hempty] at hlist
    exact absurd hlist (List.cons_ne_nil _ _).symm
  rw [opensWithDigit, if_neg hmore, hlist]
  rw [hcs] at h
  exact h

/-- Fragments in a row do not open with a digit if neither part does. -/
theorem opensWithDigit_append {l m : List Fragment} (hl : opensWithDigit l = false)
    (hm : opensWithDigit m = false) : opensWithDigit (l ++ m) = false := by
  induction l with
  | nil => exact hm
  | cons fragment rest ih =>
    cases fragment with
    | bind v => rfl
    | sql text =>
      rw [List.cons_append, opensWithDigit]
      rw [opensWithDigit] at hl
      split
      · rename_i h
        rw [if_pos h] at hl
        exact ih hl
      · rename_i h
        rwa [if_neg h] at hl

/-- Spaced fragments in a row are spaced if the second part does not open with a digit. -/
theorem Spaced.append {l m : List Fragment} (hl : Spaced l) (hm : Spaced m)
    (hopen : opensWithDigit m = false) : Spaced (l ++ m) := by
  induction l with
  | nil => exact hm
  | cons fragment rest ih =>
    cases fragment with
    | bind v => exact ⟨opensWithDigit_append hl.1 hopen, ih hl.2⟩
    | sql text => exact ⟨hl.1, ih hl.2⟩

/-- Spaced groups with a separator between them are spaced. -/
theorem spaced_separated {separator : String} (hfree : DollarFree separator)
    (hopen : opensWithDigit [.sql separator] = false) (hne : separator ≠ "")
    {groups : List (List Fragment)} (h : ∀ g ∈ groups, Spaced g) :
    Spaced (separated separator groups) := by
  induction groups with
  | nil => trivial
  | cons group rest ih =>
    obtain ⟨hgroup, hrest⟩ := List.forall_mem_cons.mp h
    cases rest with
    | nil => exact hgroup
    | cons next rest =>
      refine hgroup.append ⟨hfree, ih hrest⟩ ?_
      rw [opensWithDigit, if_neg hne] at hopen ⊢
      exact hopen

/-- The scalars of groups with a separator between them. -/
theorem filterMap_separated (separator : String) (groups : List (List Fragment)) :
    (separated separator groups).filterMap value? = groups.flatMap (·.filterMap value?) := by
  induction groups with
  | nil => rfl
  | cons group rest ih =>
    cases rest with
    | nil => simp [separated]
    | cons next rest =>
      have hstep : separated separator (group :: next :: rest) =
          group ++ .sql separator :: separated separator (next :: rest) := rfl
      rw [hstep, List.filterMap_append, List.flatMap_cons, ← ih]
      rfl

/-- Scalars with a separator between them are spaced. -/
theorem spaced_separated_bind {separator : String} (hfree : DollarFree separator)
    (hopen : opensWithDigit [.sql separator] = false) (hne : separator ≠ "") (l : List Scalar) :
    Spaced (separated separator (l.map fun v => [.bind v])) := by
  refine spaced_separated hfree hopen hne fun group hgroup => ?_
  obtain ⟨v, _, rfl⟩ := List.mem_map.mp hgroup
  exact ⟨rfl, trivial⟩

/-- Scalars with a separator between them bind just these scalars. -/
theorem filterMap_separated_bind (separator : String) (l : List Scalar) :
    (separated separator (l.map fun v => [.bind v])).filterMap value? = l := by
  rw [filterMap_separated]
  induction l with
  | nil => rfl
  | cons v l ih => rw [List.map_cons, List.flatMap_cons, ih]; rfl

/-! ## Numbering -/

/-- Fragments that do not open with a digit are rendered to a text that does not. -/
theorem startsWithDigit_render {l : List Fragment} (h : opensWithDigit l = false) (bound : Nat) :
    startsWithDigit (String.join (render bound l)).toList = false := by
  induction l with
  | nil => rfl
  | cons fragment rest ih =>
    cases fragment with
    | bind v => rw [render, String.join_cons, String.toList_append]; rfl
    | sql text =>
      rw [render, String.join_cons, String.toList_append]
      rw [opensWithDigit] at h
      split at h
      · -- Nothing is written for an empty text, so the next fragment decides.
        rename_i hempty
        rw [hempty]
        exact ih h
      · rename_i hne
        obtain ⟨c, cs, hcs⟩ := List.exists_cons_of_ne_nil (mt String.toList_eq_nil_iff.mp hne)
        rw [hcs] at h ⊢
        exact h

/-- The placeholders of rendered fragments go on from the number of the scalars bound before. -/
theorem placeholderNumbers_render {l : List Fragment} (h : Spaced l) (bound : Nat) :
    placeholderNumbers (String.join (render bound l)).toList =
      List.range' (bound + 1) (l.filterMap value?).length := by
  induction l generalizing bound with
  | nil => rfl
  | cons fragment rest ih =>
    cases fragment with
    | sql text =>
      rw [render, String.join_cons, String.toList_append, placeholderNumbers_append h.1, ih h.2]
      rfl
    | bind v =>
      -- The number ends where its digits do, since what follows does not open with a digit.
      have hdollar : "$".toList = ['$'] := rfl
      have hnumber : (toString (bound + 1)).toList = Nat.toDigits 10 (bound + 1) :=
        Nat.toList_repr
      rw [render, String.join_cons, String.join_cons, String.toList_append, String.toList_append,
        hdollar, hnumber, List.singleton_append,
        placeholderNumbers_dollar _ (startsWithDigit_render h.1 (bound + 1)), ih h.2]
      rfl

end Fragment

/-! ## Alignment -/

/-- The placeholders of a statement line up with its parameters, which are the given values. -/
structure CompiledQuery.Aligned (q : CompiledQuery) (values : List Scalar) : Prop where
  /-- Read from left to right, the placeholders are `$1`, `$2`, … up to the number of parameters. -/
  placeholders : placeholderNumbers q.sql.toList = List.range' 1 q.params.length
  /-- The scan for the greatest placeholder finds the number of parameters, as long as 64 bits hold
  it. -/
  greatest : maxPlaceholder q.sql =
    if q.params.length < UInt64.size then .ok q.params.length else .error ⟨⟩
  /-- The parameters are the values, in order. -/
  params : q.params = values

/-- Spaced fragments give an aligned statement. -/
theorem CompiledQuery.aligned_ofFragments {l : List Fragment} (h : Fragment.Spaced l) :
    (CompiledQuery.ofFragments l).Aligned (l.filterMap Fragment.value?) := by
  generalize hq : CompiledQuery.ofFragments l = q
  have hnumbers : placeholderNumbers q.sql.toList = List.range' 1 q.params.length := by
    subst hq
    exact Fragment.placeholderNumbers_render h 0
  refine ⟨hnumbers, ?_, by subst hq; rfl⟩
  split
  · rename_i hlt
    rw [maxPlaceholder_of_fit, hnumbers, foldl_max_range']
    intro n hn
    rw [hnumbers, List.mem_range'_1] at hn
    omega
  · rename_i hge
    have hlast : q.params.length ∈ placeholderNumbers q.sql.toList := by
      have hsize : 0 < UInt64.size := by decide
      rw [hnumbers, List.mem_range'_1]
      omega
    exact maxPlaceholder_of_size_le hlast (Nat.not_lt.mp hge)

end SalesQuery
