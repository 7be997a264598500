import SalesQuery.Proofs.KeyMatching

/-!
# What a pattern means

`KeyPattern.Selects` says which keys a pattern selects, read off the pattern as it is written: a
star, a question mark, a class in brackets, and a backslash that takes the meaning from the
character after it. A pattern is not matched that way. It is first brought into the plain form,
where escapes have become classes of one character and runs of stars one star, then into parts, and
the parts are matched. A pattern is `Faithful` if nothing changes on this way, and the lemmas after
it say how each kind of piece keeps a pattern faithful. So a pattern without classes always is
(`KeyPattern.faithful_of_bracketsEscaped`).
-/

namespace SalesQuery

namespace KeyPattern

open KeyToken (Matches)

/-! ## Selected keys -/

/-- The members of a class, in the text after its opening bracket and mark, and what follows the
class. A backslash makes the next character a member, a range may be given from either end, and the
class ends at the first closing bracket that is neither, or with the pattern. -/
def writtenMembers : List Char → List ClassMember × List Char
  | [] => ([], [])
  | '\\' :: c :: rest => (.single c :: (writtenMembers rest).1, (writtenMembers rest).2)
  | ']' :: rest => ([], rest)
  | first :: '-' :: last :: rest =>
    (if first ≤ last then .range first last :: (writtenMembers rest).1
      else .range last first :: (writtenMembers rest).1, (writtenMembers rest).2)
  | c :: rest => (.single c :: (writtenMembers rest).1, (writtenMembers rest).2)

/-- The character is a member of the class that a text starts with. -/
def IsMember (c : Char) (text : List Char) : Prop :=
  ∃ m ∈ (writtenMembers text).1, m.holds c = true

/-- The pattern selects the key. -/
inductive Selects : List Char → List Char → Prop
  /-- The empty pattern selects the empty key. -/
  | nil : Selects [] []
  /-- A star stands for any stretch of characters. -/
  | star {pattern : List Char} (stretch : List Char) {rest : List Char} (h : Selects pattern rest) :
    Selects ('*' :: pattern) (stretch ++ rest)
  /-- A question mark stands for one character. -/
  | any {pattern : List Char} (c : Char) {rest : List Char} (h : Selects pattern rest) :
    Selects ('?' :: pattern) (c :: rest)
  /-- A backslash and a character stand for the character. -/
  | escaped (c : Char) {pattern rest : List Char} (h : Selects pattern rest) :
    Selects ('\\' :: c :: pattern) (c :: rest)
  /-- A backslash that stands last stands for itself. -/
  | backslash : Selects ['\\'] ['\\']
  /-- A class stands for one of its members. -/
  | oneOf {pattern : List Char} {c : Char} {rest : List Char} (hmark : pattern.head? ≠ some '^')
    (hc : IsMember c pattern) (h : Selects (writtenMembers pattern).2 rest) :
    Selects ('[' :: pattern) (c :: rest)
  /-- A class with the mark `^` stands for a character that is no member. -/
  | noneOf {pattern : List Char} {c : Char} {rest : List Char} (hc : ¬ IsMember c pattern)
    (h : Selects (writtenMembers pattern).2 rest) : Selects ('[' :: '^' :: pattern) (c :: rest)
  /-- Any other character stands for itself. -/
  | literal {c : Char} {pattern rest : List Char} (hc : c ∉ ['*', '?', '[', '\\'])
    (h : Selects pattern rest) : Selects (c :: pattern) (c :: rest)

variable {pattern key : List Char} {c : Char}

/-- After a star, the pattern selects some end of the key. -/
theorem selects_star_iff :
    Selects ('*' :: pattern) key ↔ ∃ rest, rest <:+ key ∧ Selects pattern rest := by
  constructor
  · intro h
    cases h with
    | star stretch h => exact ⟨_, List.suffix_append .., h⟩
    | literal hc h => exact absurd hc (by simp)
  · rintro ⟨rest, ⟨stretch, rfl⟩, h⟩
    exact .star stretch h

/-- A second star adds nothing. -/
theorem selects_star_star_iff :
    Selects ('*' :: '*' :: pattern) key ↔ Selects ('*' :: pattern) key := by
  rw [selects_star_iff]
  constructor
  · rintro ⟨rest, hrest, h⟩
    obtain ⟨inner, hinner, h⟩ := selects_star_iff.mp h
    exact selects_star_iff.mpr ⟨inner, hinner.trans hrest, h⟩
  · intro h
    exact ⟨key, List.suffix_refl key, h⟩

/-- A character without meaning stands for itself. -/
theorem selects_literal_iff (hc : c ∉ ['*', '?', '[', '\\']) :
    Selects (c :: pattern) key ↔ ∃ rest, key = c :: rest ∧ Selects pattern rest := by
  constructor
  · intro h
    cases h with
    | literal _ h => exact ⟨_, rfl, h⟩
    | _ => simp at hc
  · rintro ⟨rest, rfl, h⟩
    exact .literal hc h

/-- A backslash and a character stand for the character. -/
theorem selects_escaped_iff :
    Selects ('\\' :: c :: pattern) key ↔ ∃ rest, key = c :: rest ∧ Selects pattern rest := by
  constructor
  · intro h
    cases h with
    | escaped _ h => exact ⟨_, rfl, h⟩
    | literal hc _ => simp at hc
  · rintro ⟨rest, rfl, h⟩
    exact .escaped c h

/-- A question mark stands for one character. -/
theorem selects_any_iff :
    Selects ('?' :: pattern) key ↔ ∃ c rest, key = c :: rest ∧ Selects pattern rest := by
  constructor
  · intro h
    cases h with
    | any c h => exact ⟨c, _, rfl, h⟩
    | literal hc _ => simp at hc
  · rintro ⟨c, rest, rfl, h⟩
    exact .any c h

/-- A class stands for one of its members. -/
theorem selects_oneOf_iff (hmark : pattern.head? ≠ some '^') :
    Selects ('[' :: pattern) key ↔ ∃ c rest, key = c :: rest ∧ IsMember c pattern ∧
      Selects (writtenMembers pattern).2 rest := by
  constructor
  · intro h
    cases h with
    | oneOf _ hc h => exact ⟨_, _, rfl, hc, h⟩
    | noneOf _ _ => exact absurd rfl hmark
    | literal hc _ => simp at hc
  · rintro ⟨c, rest, rfl, hc, h⟩
    exact .oneOf hmark hc h

/-- A class with the mark stands for a character that is no member. -/
theorem selects_noneOf_iff :
    Selects ('[' :: '^' :: pattern) key ↔ ∃ c rest, key = c :: rest ∧ ¬ IsMember c pattern ∧
      Selects (writtenMembers pattern).2 rest := by
  constructor
  · intro h
    cases h with
    | oneOf hmark _ _ => exact absurd rfl hmark
    | noneOf hc h => exact ⟨_, _, rfl, hc, h⟩
    | literal hc _ => simp at hc
  · rintro ⟨c, rest, rfl, hc, h⟩
    exact .noneOf hc h

end KeyPattern

/-! ## Reading the plain form -/

namespace KeyToken

variable {position : Nat} {rest : List Char} {tokens : List KeyToken}

/-- A question mark of the plain form is read as a part for any character. -/
theorem ofChars_anyChar (h : ofChars (position + 1) rest = .ok tokens) :
    ofChars position ('?' :: rest) = .ok (.anyChar :: tokens) := by
  rw [ofChars, h]
  rfl

/-- A star of the plain form is read as a part for any text. -/
theorem ofChars_anyText (h : ofChars (position + 1) rest = .ok tokens) :
    ofChars position ('*' :: rest) = .ok (.anyText :: tokens) := by
  rw [ofChars, h]
  rfl

/-- A class of the plain form is read as a part. -/
theorem ofChars_class {token : KeyToken} {after : List Char}
    (hclass : readClass? rest = some (token, after))
    (h : ofChars (position + 1 + (rest.length - after.length)) after = .ok tokens) :
    ofChars position ('[' :: rest) = .ok (token :: tokens) := by
  rw [ofChars]
  split
  · rename_i hnone
    rw [hclass] at hnone
    contradiction
  · rename_i token' after' hsome
    obtain ⟨rfl, rfl⟩ := Prod.mk.inj (Option.some.inj (hclass.symm.trans hsome))
    rw [h]
    rfl

/-- Any other character of the plain form is read as itself. -/
theorem ofChars_char {c : Char} (hc : c ∉ ['*', '?', '['])
    (h : ofChars (position + 1) rest = .ok tokens) :
    ofChars position (c :: rest) = .ok (.char c :: tokens) := by
  simp only [List.mem_cons, List.not_mem_nil, or_false, not_or] at hc
  obtain ⟨hstar, hany, hbracket⟩ := hc
  rw [ofChars, h]
  · rfl
  · exact hany
  · exact hstar
  · exact hbracket

end KeyToken

namespace KeyPattern

open KeyToken (Matches)

variable {pattern rest : List Char} {c : Char}

/-! ## The plain form -/

/-- A character that is no star, bracket or backslash is kept. -/
theorem plainPattern_cons (afterStar : Bool) (hc : c ∉ ['*', '[', '\\']) :
    plainPattern afterStar (c :: rest) = c :: plainPattern false rest := by
  simp only [List.mem_cons, List.not_mem_nil, or_false, not_or] at hc
  obtain ⟨hstar, hbracket, hbackslash⟩ := hc
  rw [plainPattern]
  · exact fun h _ => hbackslash h
  · exact fun _ _ h _ => hbackslash h
  · exact fun _ h _ => hbracket h
  · exact hstar

/-- A backslash takes the meaning from a character by making it a class. -/
theorem plainPattern_special (afterStar : Bool) (hc : isSpecial c = true) :
    plainPattern afterStar ('\\' :: c :: rest) = '[' :: c :: ']' :: plainPattern false rest := by
  rw [plainPattern, if_pos hc]

/-- A backslash before a character without meaning is dropped. -/
theorem plainPattern_plain (afterStar : Bool) (hc : isSpecial c = false) :
    plainPattern afterStar ('\\' :: c :: rest) = c :: plainPattern false rest := by
  rw [plainPattern, if_neg (Bool.eq_false_iff.mp hc)]

/-! ## Faithful patterns -/

/-- Nothing changes on the way from the pattern to its parts: they are found, and they stand for the
keys that the pattern selects. A star may come before the pattern, and then stars at its beginning
are dropped. -/
structure Faithful (pattern : List Char) : Prop where
  /-- The parts of the pattern on its own. -/
  alone : ∀ position, ∃ tokens,
    KeyToken.ofChars position (plainPattern false pattern) = .ok tokens ∧
      ∀ key, Matches tokens key ↔ Selects pattern key
  /-- The parts of the pattern after a star. -/
  afterStar : ∀ position, ∃ tokens,
    KeyToken.ofChars position (plainPattern true pattern) = .ok tokens ∧
      ∀ key, Matches (.anyText :: tokens) key ↔ Selects ('*' :: pattern) key

/-- A part for any text means the same before parts as a star before what they stand for. -/
theorem matches_anyText_iff_selects {tokens : List KeyToken}
    (h : ∀ key, Matches tokens key ↔ Selects pattern key) (key : List Char) :
    Matches (.anyText :: tokens) key ↔ Selects ('*' :: pattern) key := by
  simp only [KeyToken.matches_anyText_iff, selects_star_iff, h]

/-- A pattern that a star before it does not change is faithful if it is on its own. -/
theorem Faithful.of_alone (hplain : plainPattern true pattern = plainPattern false pattern)
    (h : ∀ position, ∃ tokens,
      KeyToken.ofChars position (plainPattern false pattern) = .ok tokens ∧
        ∀ key, Matches tokens key ↔ Selects pattern key) : Faithful pattern where
  alone := h
  afterStar position := by
    obtain ⟨tokens, htokens, hkeys⟩ := h position
    exact ⟨tokens, hplain ▸ htokens, matches_anyText_iff_selects hkeys⟩

/-- The empty pattern is faithful. -/
theorem faithful_nil : Faithful [] := by
  refine .of_alone rfl fun position => ⟨[], by rw [plainPattern, KeyToken.ofChars], fun key => ?_⟩
  constructor
  · rintro ⟨⟩
    exact .nil
  · rintro ⟨⟩
    exact .nil

/-- A star before a faithful pattern leaves it faithful. -/
theorem Faithful.star (h : Faithful rest) : Faithful ('*' :: rest) where
  alone position := by
    obtain ⟨tokens, htokens, hkeys⟩ := h.afterStar (position + 1)
    refine ⟨.anyText :: tokens, ?_, hkeys⟩
    rw [plainPattern, if_neg Bool.false_ne_true]
    exact KeyToken.ofChars_anyText htokens
  afterStar position := by
    obtain ⟨tokens, htokens, hkeys⟩ := h.afterStar position
    refine ⟨tokens, ?_, fun key => ?_⟩
    · rw [plainPattern, if_pos rfl]
      exact htokens
    · rw [hkeys, selects_star_star_iff]

/-- A piece that stands for one character leaves a faithful pattern faithful, if it is read as a
part for the same characters. -/
theorem Faithful.piece (token : KeyToken) (htoken : token ≠ .anyText)
    (hplain : plainPattern true pattern = plainPattern false pattern)
    (hread : ∀ position, ∃ next, ∀ tokens,
      KeyToken.ofChars next (plainPattern false rest) = .ok tokens →
        KeyToken.ofChars position (plainPattern false pattern) = .ok (token :: tokens))
    (hselects : ∀ key, Selects pattern key ↔
      ∃ c inner, key = c :: inner ∧ token.holds c = true ∧ Selects rest inner)
    (h : Faithful rest) : Faithful pattern := by
  refine .of_alone hplain fun position => ?_
  obtain ⟨next, hnext⟩ := hread position
  obtain ⟨tokens, htokens, hkeys⟩ := h.alone next
  refine ⟨token :: tokens, hnext tokens htokens, fun key => ?_⟩
  simp only [KeyToken.matches_one_iff htoken, hselects, hkeys]

/-- So does a piece that becomes a class in the plain form. -/
theorem Faithful.classPiece (token : KeyToken) (htoken : token ≠ .anyText) {plain : List Char}
    (hplain : ∀ afterStar, plainPattern afterStar pattern = '[' :: plain)
    (hread : readClass? plain = some (token, plainPattern false rest))
    (hselects : ∀ key, Selects pattern key ↔
      ∃ c inner, key = c :: inner ∧ token.holds c = true ∧ Selects rest inner)
    (h : Faithful rest) : Faithful pattern := by
  refine h.piece token htoken (by rw [hplain, hplain]) (fun position => ?_) hselects
  refine ⟨position + 1 + (plain.length - (plainPattern false rest).length), ?_⟩
  intro tokens htokens
  rw [hplain]
  exact KeyToken.ofChars_class hread htokens

/-- A question mark leaves a faithful pattern faithful. -/
theorem Faithful.any (h : Faithful rest) : Faithful ('?' :: rest) := by
  have hplain (afterStar : Bool) :
      plainPattern afterStar ('?' :: rest) = '?' :: plainPattern false rest :=
    plainPattern_cons afterStar (by simp)
  refine h.piece .anyChar (by simp) (by rw [hplain, hplain]) (fun position => ?_)
    fun key => ?_
  · refine ⟨position + 1, fun tokens htokens => ?_⟩
    rw [hplain]
    exact KeyToken.ofChars_anyChar htokens
  · simp only [selects_any_iff, KeyToken.holds, true_and]

/-- So does a character without meaning. -/
theorem Faithful.literal (hc : c ∉ ['*', '?', '[', '\\']) (h : Faithful rest) :
    Faithful (c :: rest) := by
  simp only [List.mem_cons, List.not_mem_nil, or_false, not_or] at hc
  obtain ⟨hstar, hany, hbracket, hbackslash⟩ := hc
  have hplain (afterStar : Bool) :
      plainPattern afterStar (c :: rest) = c :: plainPattern false rest :=
    plainPattern_cons afterStar (by simp [hstar, hbracket, hbackslash])
  refine h.piece (.char c) (by simp) (by rw [hplain, hplain]) (fun position => ?_)
    fun key => ?_
  · refine ⟨position + 1, fun tokens htokens => ?_⟩
    rw [hplain]
    exact KeyToken.ofChars_char (by simp [hstar, hany, hbracket]) htokens
  · rw [selects_literal_iff (by simp [hstar, hany, hbracket, hbackslash])]
    simp [KeyToken.holds]

/-- So does every character that starts no class and takes no meaning away. -/
theorem Faithful.unmarked (hbracket : c ≠ '[') (hbackslash : c ≠ '\\') (h : Faithful rest) :
    Faithful (c :: rest) := by
  by_cases hstar : c = '*'
  · rw [hstar]
    exact h.star
  · by_cases hany : c = '?'
    · rw [hany]
      exact h.any
    · exact h.literal (by simp [hstar, hany, hbracket, hbackslash])

/-- So does a backslash with a character. -/
theorem Faithful.escaped (c : Char) (h : Faithful rest) : Faithful ('\\' :: c :: rest) := by
  cases hspecial : isSpecial c with
  | true =>
    -- The character becomes a class of its own, which no mark and no bracket can start.
    have hclass : readClass? (c :: ']' :: plainPattern false rest) =
        some (.oneOf [.single c], plainPattern false rest) := by
      have hmark : c ≠ '!' := by
        rintro rfl
        contradiction
      rw [readClass?]
      · simp [splitClass?, classMembers]
      · exact fun _ heq => hmark (List.cons.inj heq).1
    refine h.classPiece (.oneOf [.single c]) (by simp) (plainPattern_special · hspecial) hclass
      fun key => ?_
    rw [selects_escaped_iff]
    simp [KeyToken.holds, ClassMember.holds]
  | false =>
    have hnone : c ∉ ['*', '?', '['] := by
      rintro hmem
      simp only [List.mem_cons, List.not_mem_nil, or_false] at hmem
      rcases hmem with rfl | rfl | rfl
      all_goals contradiction
    refine h.piece (.char c) (by simp) ?_ (fun position => ?_) fun key => ?_
    · rw [plainPattern_plain _ hspecial, plainPattern_plain _ hspecial]
    · refine ⟨position + 1, fun tokens htokens => ?_⟩
      rw [plainPattern_plain _ hspecial]
      exact KeyToken.ofChars_char hnone htokens
    · rw [selects_escaped_iff]
      simp [KeyToken.holds]

/-- A backslash that stands last is a faithful pattern. -/
theorem faithful_backslash : Faithful ['\\'] := by
  refine .of_alone rfl fun position => ⟨[.char '\\'], ?_, fun key => ?_⟩
  · exact KeyToken.ofChars_char (by simp) (by rw [KeyToken.ofChars])
  · rw [KeyToken.matches_one_iff (by simp)]
    constructor
    · rintro ⟨c, inner, rfl, hc, ⟨⟩⟩
      obtain rfl : c = '\\' := by simpa [KeyToken.holds] using hc
      exact .backslash
    · intro h
      cases h with
      | backslash => exact ⟨'\\', [], rfl, by simp [KeyToken.holds], .nil⟩
      | literal hc _ => simp at hc

/-- A backslash stands before every opening bracket. -/
def bracketsEscaped : List Char → Bool
  | [] => true
  | ['\\'] => true
  | '\\' :: _ :: rest => bracketsEscaped rest
  | '[' :: _ => false
  | _ :: rest => bracketsEscaped rest

/-- A pattern without classes is faithful. -/
theorem faithful_of_bracketsEscaped (h : bracketsEscaped pattern = true) : Faithful pattern := by
  fun_induction bracketsEscaped pattern with
  | case1 => exact faithful_nil
  | case2 => exact faithful_backslash
  | case3 c rest ih => exact (ih h).escaped c
  | case4 => contradiction
  | case5 c rest hlast hescape hbracket ih =>
    have hbackslash : c ≠ '\\' := by
      rintro rfl
      cases rest with
      | nil => exact hlast rfl rfl
      | cons d rest => exact hescape d rest rfl rfl
    exact (ih h).unmarked hbracket hbackslash

/-- A faithful pattern can be read, and matches the keys that it selects. -/
theorem Faithful.exists_ofString {s : String} (h : Faithful s.toList) :
    ∃ p, ofString s = .ok p ∧
      ∀ key : String, p.matchesKey key = true ↔ Selects s.toList key.toList := by
  obtain ⟨tokens, htokens, hkeys⟩ := h.alone 0
  refine ⟨⟨tokens⟩, ?_, fun key => ?_⟩
  · rw [ofString, htokens]
    rfl
  · rw [matchesKey_iff, hkeys]

end KeyPattern

end SalesQuery
