import SalesQuery.Database.Option
import SalesQuery.Text.Blank

/-!
# Option lists

A list of options names each with its value: `name = value`, with blanks anywhere between the parts
and at least where a plain value ends. A backslash takes the meaning from the character after it,
and a value in single quotes may hold blanks or nothing. An empty name ends the list.
-/

namespace SalesQuery

open Text (isBlank)

/-- A plain value, and what follows it. -/
def plainValue : List Char → List Char × List Char
  | [] => ([], [])
  | ['\\'] => ([], [])
  | '\\' :: c :: rest => (plainValue rest).map (c :: ·) id
  | c :: rest => if isBlank c then ([], c :: rest) else (plainValue rest).map (c :: ·) id

/-- A value after its opening quote, and what follows its closing one. -/
def quotedValue? : List Char → Option (List Char × List Char)
  | [] => none
  | ['\\'] => none
  | '\\' :: c :: rest => (quotedValue? rest).map (·.map (c :: ·) id)
  | '\'' :: rest => some ([], rest)
  | c :: rest => (quotedValue? rest).map (·.map (c :: ·) id)

/-- A value of either form, and what follows it. A plain value is not empty. -/
def optionValue? : List Char → Option (List Char × List Char)
  | '\'' :: rest => quotedValue? rest
  | l => if (plainValue l).1.isEmpty then none else some (plainValue l)

/-- A name, and what follows it. -/
def splitName (l : List Char) : List Char × List Char :=
  (l.takeWhile fun c => !isBlank c && c ≠ '=', l.dropWhile fun c => !isBlank c && c ≠ '=')

/-- A name with its value, and what follows them; nothing if the list ends here. Fails if the value
is missing or has no end. -/
def nextOption? (l : List Char) : Option (Option ((List Char × List Char) × List Char)) :=
  match splitName (l.dropWhile isBlank) with
  | ([], _) => some none
  | (name, rest) =>
    match rest.dropWhile isBlank with
    | '=' :: after =>
      (optionValue? (after.dropWhile isBlank)).map fun (value, after) =>
        some ((name, value), after)
    | _ => none

/-- What follows a plain value is no longer than the value with what follows. -/
theorem plainValue_length (l : List Char) : (plainValue l).2.length ≤ l.length := by
  fun_induction plainValue l with
  | case1 => simp
  | case2 => simp
  | case3 c rest ih => simp only [Prod.map_snd, id, List.length_cons]; omega
  | case4 => simp
  | case5 c rest _ _ _ ih => simp only [Prod.map_snd, id, List.length_cons]; omega

/-- What follows a quoted value is no longer than the value with what follows. -/
theorem quotedValue?_length {l value after : List Char}
    (h : quotedValue? l = some (value, after)) : after.length ≤ l.length := by
  have step {c : Char} {rest value : List Char}
      (ih : ∀ {value}, quotedValue? rest = some (value, after) → after.length ≤ rest.length)
      (h : (quotedValue? rest).map (·.map (c :: ·) id) = some (value, after)) :
      after.length ≤ rest.length := by
    obtain ⟨⟨v, a⟩, hrest, heq⟩ := Option.map_eq_some_iff.1 h
    simp only [Prod.map_apply, id, Prod.mk.injEq] at heq
    exact ih (heq.2 ▸ hrest)
  fun_induction quotedValue? l generalizing value with
  | case1 => simp at h
  | case2 => simp at h
  | case3 c rest ih => have := step ih h; simp only [List.length_cons]; omega
  | case4 rest =>
    simp only [Option.some.injEq, Prod.mk.injEq] at h
    simp [← h.2]
  | case5 c rest _ _ _ ih => have := step ih h; simp only [List.length_cons]; omega

/-- What follows a value is no longer than the value with what follows. -/
theorem optionValue?_length {l value after : List Char}
    (h : optionValue? l = some (value, after)) : after.length ≤ l.length := by
  unfold optionValue? at h
  split at h
  · have := quotedValue?_length h
    simp only [List.length_cons]
    omega
  · split at h
    · simp at h
    · simp only [Option.some.injEq] at h
      have := plainValue_length l
      rwa [h] at this

/-- What follows a name with its value is shorter than all three. -/
theorem nextOption?_length {l after : List Char} {o : List Char × List Char}
    (h : nextOption? l = some (some (o, after))) : after.length < l.length := by
  unfold nextOption? at h
  split at h
  · simp at h
  · rename_i name rest _ hname
    have hrest : rest.length ≤ l.length := by
      have h₁ := (List.dropWhile_sublist (fun c => !isBlank c && c ≠ '=')
        (l := l.dropWhile isBlank)).length_le
      have h₂ := (List.dropWhile_sublist isBlank (l := l)).length_le
      simp only [splitName, Prod.mk.injEq] at hname
      rw [hname.2] at h₁
      omega
    have hblank := (List.dropWhile_sublist isBlank (l := rest)).length_le
    split at h
    · rename_i tail htail
      obtain ⟨⟨v, a⟩, hvalue, heq⟩ := Option.map_eq_some_iff.1 h
      have hafter := optionValue?_length hvalue
      have := (List.dropWhile_sublist isBlank (l := tail)).length_le
      simp only [Option.some.injEq, Prod.mk.injEq] at heq
      rw [htail, List.length_cons] at hblank
      rw [← heq.2]
      omega
    · simp at h

/-- Whether a text is a list of options, each with a value that it admits. -/
def isOptionList (l : List Char) : Bool :=
  match h : nextOption? l with
  | none => false
  | some none => true
  | some (some ((name, value), after)) =>
    have := nextOption?_length h
    isConnectionOption (String.ofList name) value && isOptionList after
termination_by l.length

end SalesQuery
