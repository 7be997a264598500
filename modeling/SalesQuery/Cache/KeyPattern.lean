/-!
# Key patterns

A pattern selects keys of the store: `*` stands for any text, `?` for any character, a class in
brackets for one of its members, and a backslash takes its meaning from a special character. The
pattern is first brought into the plain form that `KeyToken.ofChars` reads, which has no backslash
and negates a class with `!`; faults are reported at positions of the plain form.
-/

namespace SalesQuery

/-- A member of a class. -/
inductive ClassMember where
  /-- One character. -/
  | single (c : Char)
  /-- The characters from the first to the last; none if they are out of order. -/
  | range (first last : Char)
deriving DecidableEq, Repr

/-- A part of a key pattern. -/
inductive KeyToken where
  /-- The character itself. -/
  | char (c : Char)
  /-- Any character. -/
  | anyChar
  /-- Any text. -/
  | anyText
  /-- A character that is a member. -/
  | oneOf (members : List ClassMember)
  /-- A character that is no member. -/
  | noneOf (members : List ClassMember)
deriving DecidableEq, Repr

/-- Whether a character is the member or lies in its range. -/
def ClassMember.holds (c : Char) : ClassMember → Bool
  | .single d => c = d
  | .range first last => first ≤ c && c ≤ last

/-- Whether the part stands for the character; a part for texts stands for no single one. -/
def KeyToken.holds (c : Char) : KeyToken → Bool
  | .char d => c = d
  | .anyChar => true
  | .anyText => false
  | .oneOf members => members.any (·.holds c)
  | .noneOf members => !members.any (·.holds c)

/-! ## Plain form -/

/-- Whether a backslash takes the meaning from the character. -/
def isSpecial (c : Char) : Bool := c = '*' || c = '?' || c = '[' || c = ']'

/-- The plain form of a pattern: escapes become classes of one character, `[^` becomes `[!`, and a
star that follows another is dropped. `afterStar` tells whether the text so far ends with a star. -/
def plainPattern (afterStar : Bool) : List Char → List Char
  | [] => []
  | ['\\'] => ['\\']
  | '\\' :: c :: rest =>
    if isSpecial c then '[' :: c :: ']' :: plainPattern false rest
    else c :: plainPattern false rest
  | '[' :: '^' :: rest => '[' :: '!' :: plainPattern false rest
  | '*' :: rest => if afterStar then plainPattern true rest else '*' :: plainPattern true rest
  | c :: rest => c :: plainPattern false rest

/-! ## Reading -/

/-- A class of a pattern that is not closed. -/
structure UnclosedClass where
  /-- The position of its opening bracket in the plain form of the pattern. -/
  position : Nat
deriving DecidableEq, Repr

/-- The fault in words. -/
def UnclosedClass.message (fault : UnclosedClass) : String :=
  "invalid key pattern: Pattern syntax error near position " ++ toString fault.position
    ++ ": invalid range pattern"

/-- The members of a class. -/
def classMembers : List Char → List ClassMember
  | first :: '-' :: last :: rest => .range first last :: classMembers rest
  | c :: rest => .single c :: classMembers rest
  | [] => []

/-- The text of a class after its opening bracket and mark, up to the closing bracket, and what
follows. A bracket that stands first does not close the class. -/
def splitClass? : List Char → Option (List Char × List Char)
  | [] => none
  | c :: rest =>
    match rest.dropWhile (· ≠ ']') with
    | [] => none
    | _ :: after => some (c :: rest.takeWhile (· ≠ ']'), after)

/-- Reads a class after its opening bracket. -/
def readClass? (l : List Char) : Option (KeyToken × List Char) :=
  match l with
  | '!' :: rest => (splitClass? rest).map fun (text, after) => (.noneOf (classMembers text), after)
  | rest => (splitClass? rest).map fun (text, after) => (.oneOf (classMembers text), after)

theorem splitClass?_length {l text after : List Char} (h : splitClass? l = some (text, after)) :
    after.length < l.length := by
  cases l with
  | nil => simp [splitClass?] at h
  | cons c rest =>
    simp only [splitClass?] at h
    have hle : (rest.dropWhile (· ≠ ']')).length ≤ rest.length :=
      (List.dropWhile_sublist _).length_le
    split at h
    · simp at h
    · rename_i d tail heq
      simp only [Option.some.injEq, Prod.mk.injEq] at h
      rw [heq, h.2] at hle
      simp only [List.length_cons] at hle ⊢
      omega

/-- What follows a class is shorter than the class with what follows. -/
theorem readClass?_length {l after : List Char} {token : KeyToken}
    (h : readClass? l = some (token, after)) : after.length < l.length := by
  unfold readClass? at h
  split at h
  · rename_i rest
    obtain ⟨⟨text, tail⟩, hsplit, heq⟩ := Option.map_eq_some_iff.1 h
    have := splitClass?_length hsplit
    simp only [Prod.mk.injEq] at heq
    rw [← heq.2, List.length_cons]
    omega
  · obtain ⟨⟨text, tail⟩, hsplit, heq⟩ := Option.map_eq_some_iff.1 h
    have := splitClass?_length hsplit
    simp only [Prod.mk.injEq] at heq
    rwa [← heq.2]

/-- Reads the parts of a pattern in plain form. Fails at a class without a closing bracket;
`position` is that of the first character. -/
def KeyToken.ofChars (position : Nat) (l : List Char) : Except UnclosedClass (List KeyToken) :=
  match l with
  | [] => .ok []
  | '?' :: rest => return .anyChar :: (← ofChars (position + 1) rest)
  | '*' :: rest => return .anyText :: (← ofChars (position + 1) rest)
  | '[' :: rest =>
    match h : readClass? rest with
    | none => .error ⟨position⟩
    | some (token, after) =>
      have := readClass?_length h
      return token :: (← ofChars (position + 1 + (rest.length - after.length)) after)
  | c :: rest => return .char c :: (← ofChars (position + 1) rest)
termination_by l.length

/-! ## Matching -/

/-- How a match ends. -/
inductive MatchEnd where
  /-- The parts stand for the text. -/
  | matched
  /-- The parts do not stand for the text, though they may for a shorter one. -/
  | mismatch
  /-- The text is too short for the parts. -/
  | tooShort
deriving DecidableEq, Repr

/-- Matches parts against a whole text. A part for any text is tried on ever longer beginnings; once
the remaining text is too short for the remaining parts, no longer beginning can help. -/
def KeyToken.matchEnd (tokens : List KeyToken) (text : List Char) : MatchEnd :=
  match tokens, text with
  | [], [] => .matched
  | [], _ :: _ => .mismatch
  | .anyText :: tokens, text =>
    match matchEnd tokens text, text with
    | .mismatch, _ :: text => matchEnd (.anyText :: tokens) text
    | .mismatch, [] => .mismatch
    | ending, _ => ending
  | _ :: _, [] => .tooShort
  | token :: tokens, c :: text => if token.holds c then matchEnd tokens text else .mismatch
termination_by (tokens.length, text.length)

/-- A pattern for keys. -/
structure KeyPattern where
  /-- The parts, in order. -/
  tokens : List KeyToken
deriving DecidableEq, Repr

namespace KeyPattern

/-- Reads a pattern. -/
def ofString (s : String) : Except UnclosedClass KeyPattern :=
  KeyPattern.mk <$> KeyToken.ofChars 0 (plainPattern false s.toList)

/-- Whether the pattern stands for the whole key. -/
def matchesKey (p : KeyPattern) (key : String) : Bool :=
  KeyToken.matchEnd p.tokens key.toList = .matched

end KeyPattern

end SalesQuery
