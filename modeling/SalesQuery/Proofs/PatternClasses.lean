import Mathlib.Data.List.Chain
import SalesQuery.Proofs.PatternMeaning

/-!
# Classes of a pattern

A class in brackets goes through the plain form unread: what stands in it is brought into the plain
form like any other part of the pattern, and only then read as a class. A class is `PlainClass` if
nothing in it is changed on this way and if its members are read as they are written. Patterns with
such classes only keep their meaning (`KeyPattern.plainClasses_matched`). A class that starts with
`!` is read as its complement (`KeyPattern.bang_matched_as_mark`), and what becomes of others is
shown in `KeyPattern.classes_change_meaning`.
-/

namespace SalesQuery

namespace KeyPattern

variable {c : Char} {text rest : List Char}

/-! ## Plain classes -/

/-- The members are characters, and ranges given from their lower ends. -/
inductive PlainMembers : List Char → Prop
  /-- There are no members. -/
  | nil : PlainMembers []
  /-- A range is given from its lower end. -/
  | range {first last : Char} {text : List Char} (hle : first ≤ last) (h : PlainMembers text) :
    PlainMembers (first :: '-' :: last :: text)
  /-- A character has no dash after it. -/
  | single (c : Char) {text : List Char} (hdash : text.head? ≠ some '-') (h : PlainMembers text) :
    PlainMembers (c :: text)

/-- The text between the mark of a class and its closing bracket means in the plain form what it
means as it is written. -/
structure PlainClass (text : List Char) : Prop where
  /-- There are members. -/
  nonempty : text ≠ []
  /-- No member is escaped. -/
  notEscaped : '\\' ∉ text
  /-- No member is a closing bracket. -/
  notClosed : ']' ∉ text
  /-- No two characters stand together that the plain form changes. -/
  kept : text.IsChain fun c d => ¬(c = '[' ∧ d = '^') ∧ ¬(c = '*' ∧ d = '*')
  /-- The members are characters and ascending ranges. -/
  members : PlainMembers text

/-- All classes of the pattern are plain, and none without the mark `^` starts with `!`. -/
inductive ClassesPlain : List Char → Prop
  /-- The empty pattern has no classes. -/
  | nil : ClassesPlain []
  /-- A backslash may stand last. -/
  | backslash : ClassesPlain ['\\']
  /-- A character may be escaped. -/
  | escaped (c : Char) {rest : List Char} (h : ClassesPlain rest) : ClassesPlain ('\\' :: c :: rest)
  /-- A class has plain members. -/
  | oneOf {text rest : List Char} (hbang : text.head? ≠ some '!') (hmark : text.head? ≠ some '^')
    (hclass : PlainClass text) (h : ClassesPlain rest) : ClassesPlain ('[' :: (text ++ ']' :: rest))
  /-- A class with the mark `^` has plain members. -/
  | noneOf {text rest : List Char} (hclass : PlainClass text) (h : ClassesPlain rest) :
    ClassesPlain ('[' :: '^' :: (text ++ ']' :: rest))
  /-- Any other character is no class. -/
  | other {c : Char} {rest : List Char} (hbracket : c ≠ '[') (hbackslash : c ≠ '\\')
    (h : ClassesPlain rest) : ClassesPlain (c :: rest)

/-! ## The plain form of a class -/

/-- An opening bracket is kept. -/
theorem plainPattern_bracket (afterStar : Bool) (hmark : rest.head? ≠ some '^') :
    plainPattern afterStar ('[' :: rest) = '[' :: plainPattern false rest := by
  rw [plainPattern]
  all_goals simp
  rintro rest' rfl
  exact hmark rfl

/-- What stands in a plain class is kept. -/
theorem plainPattern_class (hescaped : '\\' ∉ text)
    (hkept : text.IsChain fun c d => ¬(c = '[' ∧ d = '^') ∧ ¬(c = '*' ∧ d = '*'))
    (afterStar : Bool) (hstar : afterStar = true → text.head? ≠ some '*') :
    plainPattern afterStar (text ++ ']' :: rest) = text ++ ']' :: plainPattern false rest := by
  induction text generalizing afterStar with
  | nil => exact plainPattern_cons afterStar (by simp)
  | cons c text ih =>
    have hbackslash : c ≠ '\\' := fun heq => hescaped (by simp [heq])
    have hrest := fun (afterStar : Bool) h =>
      ih (fun hmem => hescaped (List.mem_cons_of_mem c hmem)) hkept.tail afterStar h
    have hnext : ∀ d ∈ text.head?, ¬(c = '[' ∧ d = '^') ∧ ¬(c = '*' ∧ d = '*') :=
      (List.isChain_cons.mp hkept).1
    rw [List.cons_append, List.cons_append]
    -- Only a star and an opening bracket look at the character after them.
    by_cases hcstar : c = '*'
    · subst hcstar
      have hafter : afterStar = false := by
        cases afterStar with
        | false => rfl
        | true => exact absurd rfl (hstar rfl)
      rw [plainPattern, hafter, if_neg Bool.false_ne_true, hrest true]
      rintro - hhead
      exact (hnext '*' hhead).2 ⟨rfl, rfl⟩
    · by_cases hbracket : c = '['
      · subst hbracket
        rw [plainPattern_bracket, hrest false (by simp)]
        cases text with
        | nil => simp
        | cons d text =>
          rintro heq
          exact (hnext d rfl).1 ⟨rfl, Option.some.inj heq⟩
      · have hplain : c ∉ ['*', '[', '\\'] := by simp [hcstar, hbracket, hbackslash]
        rw [plainPattern_cons afterStar hplain, hrest false (by simp)]

/-! ## Reading a class -/

/-- The text of a class ends before its closing bracket. -/
theorem splitClass?_append (hnonempty : text ≠ []) (hclosed : ']' ∉ text) :
    splitClass? (text ++ ']' :: rest) = some (text, rest) := by
  obtain ⟨c, text, rfl⟩ := List.exists_cons_of_ne_nil hnonempty
  have hnot : ∀ d ∈ text, decide (d ≠ ']') = true := by
    intro d hd
    refine decide_eq_true fun heq => hclosed ?_
    exact List.mem_cons_of_mem c (heq ▸ hd)
  have hdrop : (text ++ ']' :: rest).dropWhile (· ≠ ']') = ']' :: rest := by
    rw [List.dropWhile_append_of_pos hnot, List.dropWhile_cons_of_neg (by simp)]
  have htake : (text ++ ']' :: rest).takeWhile (· ≠ ']') = text := by
    rw [List.takeWhile_append_of_pos hnot, List.takeWhile_cons_of_neg (by simp), List.append_nil]
  rw [List.cons_append, splitClass?, hdrop, htake]

/-- The members that are written are those that are read. -/
theorem writtenMembers_append (h : PlainMembers text) (hescaped : '\\' ∉ text)
    (hclosed : ']' ∉ text) :
    writtenMembers (text ++ ']' :: rest) = (classMembers text, rest) := by
  induction h with
  | nil => rw [List.nil_append, writtenMembers, classMembers]
  | @range first last text hle h ih =>
    simp only [List.mem_cons, not_or] at hescaped hclosed
    have hrest := ih hescaped.2.2.2 hclosed.2.2.2
    rw [List.cons_append, List.cons_append, List.cons_append, writtenMembers, hrest, if_pos hle,
      classMembers]
    · exact Ne.symm hescaped.1
    · exact Ne.symm hclosed.1
  | @single c text hdash h ih =>
    simp only [List.mem_cons, not_or] at hescaped hclosed
    have hrest := ih hescaped.2 hclosed.2
    rw [List.cons_append, writtenMembers, hrest, classMembers]
    · rintro last rest' rfl
      exact hdash rfl
    · rintro d rest' heq -
      exact hescaped.1 heq.symm
    · exact Ne.symm hclosed.1
    · rintro last rest' heq
      -- The character after this one is the closing bracket, or the next of the class.
      cases text with
      | nil => simp at heq
      | cons d text =>
        obtain ⟨rfl, -⟩ := List.cons.inj heq
        exact hdash rfl

/-- The members of a plain class are those that are written. -/
theorem PlainClass.isMember_iff (h : PlainClass text) :
    IsMember c (text ++ ']' :: rest) ↔ (classMembers text).any (·.holds c) = true := by
  rw [IsMember, writtenMembers_append h.members h.notEscaped h.notClosed, List.any_eq_true]

/-- After a plain class comes what is written after it. -/
theorem PlainClass.writtenMembers_snd (h : PlainClass text) :
    (writtenMembers (text ++ ']' :: rest)).2 = rest := by
  rw [writtenMembers_append h.members h.notEscaped h.notClosed]

/-- The first character of a plain class comes before its closing bracket. -/
theorem PlainClass.head?_append (h : PlainClass text) (rest : List Char) :
    (text ++ ']' :: rest).head? = text.head? :=
  List.head?_append_of_ne_nil text h.nonempty

/-! ## Patterns with plain classes -/

/-- A plain class leaves a faithful pattern faithful. -/
theorem Faithful.oneOf (hbang : text.head? ≠ some '!') (hmark : text.head? ≠ some '^')
    (hclass : PlainClass text) (h : Faithful rest) : Faithful ('[' :: (text ++ ']' :: rest)) := by
  have hplain (afterStar : Bool) : plainPattern afterStar ('[' :: (text ++ ']' :: rest)) =
      '[' :: (text ++ ']' :: plainPattern false rest) := by
    rw [plainPattern_bracket afterStar (hclass.head?_append rest ▸ hmark),
      plainPattern_class hclass.notEscaped hclass.kept false (by simp)]
  have hread : readClass? (text ++ ']' :: plainPattern false rest) =
      some (.oneOf (classMembers text), plainPattern false rest) := by
    rw [readClass?, splitClass?_append hclass.nonempty hclass.notClosed]
    · rfl
    · rintro rest' heq
      rw [← hclass.head?_append (plainPattern false rest), heq] at hbang
      exact hbang rfl
  refine h.classPiece (.oneOf (classMembers text)) (by simp) hplain hread fun key => ?_
  rw [selects_oneOf_iff (hclass.head?_append rest ▸ hmark)]
  simp only [hclass.isMember_iff, hclass.writtenMembers_snd, KeyToken.holds]

/-- So does a plain class with the mark. -/
theorem Faithful.noneOf (hclass : PlainClass text) (h : Faithful rest) :
    Faithful ('[' :: '^' :: (text ++ ']' :: rest)) := by
  have hplain (afterStar : Bool) : plainPattern afterStar ('[' :: '^' :: (text ++ ']' :: rest)) =
      '[' :: '!' :: (text ++ ']' :: plainPattern false rest) := by
    rw [plainPattern, plainPattern_class hclass.notEscaped hclass.kept false (by simp)]
  have hread : readClass? ('!' :: (text ++ ']' :: plainPattern false rest)) =
      some (.noneOf (classMembers text), plainPattern false rest) := by
    rw [readClass?, splitClass?_append hclass.nonempty hclass.notClosed]
    rfl
  refine h.classPiece (.noneOf (classMembers text)) (by simp) hplain hread fun key => ?_
  rw [selects_noneOf_iff]
  simp only [hclass.isMember_iff, hclass.writtenMembers_snd, KeyToken.holds, Bool.not_eq_true',
    Bool.not_eq_true]

/-- A pattern with plain classes only is faithful. -/
theorem ClassesPlain.faithful {pattern : List Char} (h : ClassesPlain pattern) :
    Faithful pattern := by
  induction h with
  | nil => exact faithful_nil
  | backslash => exact faithful_backslash
  | escaped c h ih => exact ih.escaped c
  | oneOf hbang hmark hclass h ih => exact ih.oneOf hbang hmark hclass
  | noneOf hclass h ih => exact ih.noneOf hclass
  | other hbracket hbackslash h ih => exact ih.unmarked hbracket hbackslash

/-- A pattern with plain classes only can be read, and matches the keys that it selects. -/
theorem plainClasses_matched {pattern : String} (h : ClassesPlain pattern.toList) :
    ∃ p, ofString pattern = .ok p ∧
      ∀ key : String, p.matchesKey key = true ↔ Selects pattern.toList key.toList :=
  h.faithful.exists_ofString

/-- A pattern with a class of each kind, and with brackets that start none. -/
theorem plainClasses_matched_marked :
    ∃ p, ofString "q[a-c*[]*[^-!]\\[]" = .ok p ∧ ∀ key : String,
      p.matchesKey key = true ↔ Selects "q[a-c*[]*[^-!]\\[]".toList key.toList := by
  have htext : "q[a-c*[]*[^-!]\\[]".toList =
      'q' :: '[' :: (['a', '-', 'c', '*', '['] ++ ']' ::
        ('*' :: '[' :: '^' :: (['-', '!'] ++ ']' :: ['\\', '[', ']']))) := by
    decide
  have hmembers : PlainMembers ['a', '-', 'c', '*', '['] :=
    .range (by decide) (.single '*' (by decide) (.single '[' (by decide) .nil))
  have hothers : PlainMembers ['-', '!'] := .single '-' (by decide) (.single '!' (by decide) .nil)
  have hclass : PlainClass ['a', '-', 'c', '*', '['] :=
    ⟨by decide, by decide, by decide, by decide, hmembers⟩
  have hmarked : PlainClass ['-', '!'] := ⟨by decide, by decide, by decide, by decide, hothers⟩
  have hend : ClassesPlain ['\\', '[', ']'] := .escaped '[' (.other (by decide) (by decide) .nil)
  refine plainClasses_matched ?_
  rw [htext]
  exact .other (by decide) (by decide) (.oneOf (by decide) (by decide) hclass
    (.other (by decide) (by decide) (.noneOf hmarked hend)))

/-- A class that starts with `!` is read as if it started with `^`. -/
theorem plainPattern_bang (afterStar : Bool) :
    plainPattern afterStar ('[' :: '!' :: rest) = plainPattern afterStar ('[' :: '^' :: rest) :=
  calc plainPattern afterStar ('[' :: '!' :: rest)
    _ = '[' :: plainPattern false ('!' :: rest) := plainPattern_bracket afterStar (by simp)
    _ = '[' :: '!' :: plainPattern false rest := by rw [plainPattern_cons false (by simp)]
    _ = plainPattern afterStar ('[' :: '^' :: rest) := by rw [plainPattern]

/-- A pattern that starts with such a class matches the keys of the one that starts with `^`. -/
theorem bang_matched_as_mark {pattern : String}
    (hpattern : pattern.toList = '[' :: '!' :: (text ++ ']' :: rest)) (hclass : PlainClass text)
    (hrest : ClassesPlain rest) :
    ∃ p, ofString pattern = .ok p ∧ ∀ key : String,
      p.matchesKey key = true ↔ Selects ('[' :: '^' :: (text ++ ']' :: rest)) key.toList := by
  obtain ⟨tokens, htokens, hkeys⟩ := (ClassesPlain.noneOf hclass hrest).faithful.alone 0
  refine ⟨⟨tokens⟩, ?_, fun key => ?_⟩
  · rw [ofString, hpattern, plainPattern_bang, htokens]
    rfl
  · rw [matchesKey_iff, hkeys]

/-- A class without the mark selects its members alone, if nothing is written after it. -/
theorem selects_class_iff (hmark : text.head? ≠ some '^') (hend : (writtenMembers text).2 = []) :
    Selects ('[' :: text) [c] ↔ ∃ m ∈ (writtenMembers text).1, m.holds c = true := by
  rw [selects_oneOf_iff hmark, hend]
  constructor
  · rintro ⟨d, rest, heq, hmember, -⟩
    obtain ⟨rfl, -⟩ := List.cons.inj heq
    exact hmember
  · intro hmember
    exact ⟨c, [], rfl, hmember, .nil⟩

/-- Classes that are not plain are not read as they are written: a leading `!` negates, an escaped
bracket becomes a class of its own, an escaped dash makes a range, a range from its upper end is
empty, a dash before the closing bracket is a member, `[^` is changed inside of a class, a star
after a star is dropped there, and a closing bracket that stands first is a member. -/
theorem classes_change_meaning :
    ((ofString "[!a]").map (·.matchesKey "b") = .ok true ∧ ¬ Selects ['[', '!', 'a', ']'] ['b']) ∧
    ((ofString "[\\]]").map (·.matchesKey "]") = .ok false ∧
      Selects ['[', '\\', ']', ']'] [']']) ∧
    ((ofString "[a\\-z]").map (·.matchesKey "m") = .ok true ∧
      ¬ Selects ['[', 'a', '\\', '-', 'z', ']'] ['m']) ∧
    ((ofString "[z-a]").map (·.matchesKey "m") = .ok false ∧
      Selects ['[', 'z', '-', 'a', ']'] ['m']) ∧
    ((ofString "[a-]").map (·.matchesKey "-") = .ok true ∧
      ¬ Selects ['[', 'a', '-', ']'] ['-']) ∧
    ((ofString "[x[^y]").map (·.matchesKey "^") = .ok false ∧
      Selects ['[', 'x', '[', '^', 'y', ']'] ['^']) ∧
    ((ofString "[#-**-z]").map (·.matchesKey "a") = .ok false ∧
      Selects ['[', '#', '-', '*', '*', '-', 'z', ']'] ['a']) ∧
    ((ofString "[]a]").map (·.matchesKey "a") = .ok true ∧
      ¬ Selects ['[', ']', 'a', ']'] ['a']) := by
  refine ⟨⟨by cbv, ?_⟩, ⟨by cbv, ?_⟩, ⟨by cbv, ?_⟩, ⟨by cbv, ?_⟩, ⟨by cbv, ?_⟩, ⟨by cbv, ?_⟩,
    ⟨by cbv, ?_⟩, ⟨by cbv, ?_⟩⟩
  case refine_8 =>
    -- The class ends where it starts, so it has no members.
    rw [selects_oneOf_iff (by decide)]
    rintro ⟨c, rest, -, ⟨m, hm, -⟩, -⟩
    rw [writtenMembers] at hm
    contradiction
  all_goals
    rw [selects_class_iff (by decide) (by decide)]
    decide

end KeyPattern

end SalesQuery
