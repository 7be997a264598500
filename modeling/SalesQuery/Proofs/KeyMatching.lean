import Mathlib.Data.List.Infix
import SalesQuery.Cache.KeyPattern

/-!
# What the parts of a pattern stand for

`KeyToken.Matches` says what it means for parts to stand for a text: each part for one character
stands for one, and each part for any text for some stretch. `KeyToken.matchEnd` looks for such a
reading from left to right and tries ever longer stretches. It gives up early once the text is too
short for the parts that are left (`.tooShort`), because then no longer stretch leaves enough. The
main statement, `KeyToken.matchEnd_eq_matched_iff`, is that it gives up on no text that the parts
stand for.
-/

namespace SalesQuery

namespace KeyToken

/-- The parts stand for the text, one after the other. -/
inductive Matches : List KeyToken → List Char → Prop
  /-- No parts stand for the empty text. -/
  | nil : Matches [] []
  /-- A part for any text stands for any stretch. -/
  | anyText {tokens : List KeyToken} (stretch : List Char) {rest : List Char}
    (h : Matches tokens rest) : Matches (.anyText :: tokens) (stretch ++ rest)
  /-- A part for a character stands for the characters that it holds. -/
  | one {token : KeyToken} {tokens : List KeyToken} {c : Char} {rest : List Char}
    (hc : token.holds c = true) (h : Matches tokens rest) : Matches (token :: tokens) (c :: rest)

variable {token : KeyToken} {tokens : List KeyToken} {c : Char} {text : List Char}

/-- After a part for any text, the other parts stand for some end of the text. -/
theorem matches_anyText_iff :
    Matches (.anyText :: tokens) text ↔ ∃ rest, rest <:+ text ∧ Matches tokens rest := by
  constructor
  · intro h
    cases h with
    | anyText stretch h => exact ⟨_, List.suffix_append .., h⟩
    | one hc h => exact absurd hc (by simp [holds])
  · rintro ⟨rest, ⟨stretch, rfl⟩, h⟩
    exact .anyText stretch h

/-- The stretch of a part for any text is empty, or takes the first character. -/
theorem matches_anyText_cons_iff :
    Matches (.anyText :: tokens) (c :: text) ↔
      Matches tokens (c :: text) ∨ Matches (.anyText :: tokens) text := by
  simp only [matches_anyText_iff, List.suffix_cons_iff, or_and_right, exists_or, exists_eq_left]

/-- A part for a character takes the first one. -/
theorem matches_one_iff (htoken : token ≠ .anyText) :
    Matches (token :: tokens) text ↔
      ∃ c rest, text = c :: rest ∧ token.holds c = true ∧ Matches tokens rest := by
  constructor
  · intro h
    cases h with
    | anyText => exact absurd rfl htoken
    | one hc h => exact ⟨_, _, rfl, hc, h⟩
  · rintro ⟨c, rest, rfl, hc, h⟩
    exact .one hc h

end KeyToken

/-- What the end of a match tells of the parts and the text. -/
def MatchEnd.Tells (tokens : List KeyToken) (text : List Char) : MatchEnd → Prop
  | .matched => KeyToken.Matches tokens text
  | .mismatch => ¬ KeyToken.Matches tokens text
  | .tooShort => ∀ rest, rest <:+ text → ¬ KeyToken.Matches tokens rest

namespace MatchEnd

open KeyToken

variable {token : KeyToken} {tokens : List KeyToken} {c : Char} {text : List Char}
  {ending : MatchEnd}

/-- A match that ended otherwise than by a mismatch ends so after a part for any text, too. -/
theorem Tells.anyText (h : ending.Tells tokens text) (hending : ending ≠ .mismatch) :
    ending.Tells (.anyText :: tokens) text := by
  cases ending with
  | matched => exact matches_anyText_iff.mpr ⟨text, List.suffix_refl text, h⟩
  | mismatch => exact absurd rfl hending
  | tooShort =>
    intro rest hrest hmatch
    obtain ⟨inner, hinner, hmatch⟩ := matches_anyText_iff.mp hmatch
    exact h inner (hinner.trans hrest) hmatch

/-- After a mismatch, the match with a longer stretch decides. -/
theorem Tells.anyText_cons (hmismatch : ¬ Matches tokens (c :: text))
    (h : ending.Tells (.anyText :: tokens) text) :
    ending.Tells (.anyText :: tokens) (c :: text) := by
  have hlonger : Matches (.anyText :: tokens) (c :: text) ↔ Matches (.anyText :: tokens) text := by
    rw [matches_anyText_cons_iff, or_iff_right hmismatch]
  cases ending with
  | matched => exact hlonger.mpr h
  | mismatch => exact mt hlonger.mp h
  | tooShort =>
    intro rest hrest
    rcases List.suffix_cons_iff.mp hrest with rfl | hrest
    · exact mt hlonger.mp (h text (List.suffix_refl text))
    · exact h rest hrest

/-- After a character that its part holds, the match of what follows decides. -/
theorem Tells.one (htoken : token ≠ .anyText) (hc : token.holds c = true)
    (h : ending.Tells tokens text) : ending.Tells (token :: tokens) (c :: text) := by
  cases ending with
  | matched => exact .one hc h
  | mismatch =>
    intro hmatch
    obtain ⟨d, rest, heq, -, hrest⟩ := (matches_one_iff htoken).mp hmatch
    obtain ⟨-, rfl⟩ := List.cons.inj heq
    exact h hrest
  | tooShort =>
    intro rest hrest hmatch
    obtain ⟨d, inner, rfl, -, hinner⟩ := (matches_one_iff htoken).mp hmatch
    -- What follows a character of an end of the text is an end of what follows the first one.
    have hend : inner <:+ text := by
      rcases List.suffix_cons_iff.mp hrest with heq | hrest
      · obtain ⟨-, rfl⟩ := List.cons.inj heq
        exact List.suffix_refl inner
      · exact (List.suffix_cons d inner).trans hrest
    exact h inner hend hinner

end MatchEnd

namespace KeyToken

open MatchEnd (Tells)

/-- The end of every match tells the truth of its parts and its text. -/
theorem tells_matchEnd (tokens : List KeyToken) (text : List Char) :
    (matchEnd tokens text).Tells tokens text := by
  fun_induction matchEnd tokens text with
  | case1 => exact .nil
  | case2 c text => exact nofun
  | case3 tokens c text hmismatch htells ih =>
    rw [hmismatch] at htells ⊢
    exact .anyText_cons htells ih
  | case4 tokens hmismatch htells =>
    rw [hmismatch] at htells ⊢
    intro hmatch
    obtain ⟨rest, hrest, hmatch⟩ := matches_anyText_iff.mp hmatch
    obtain rfl := List.suffix_nil.mp hrest
    exact htells hmatch
  | case5 tokens text hcons hnil htells =>
    have hending : matchEnd tokens text ≠ .mismatch := by
      intro hmismatch
      cases text with
      | nil => exact hnil hmismatch rfl
      | cons c text => exact hcons c text hmismatch rfl
    have hkept := htells.anyText hending
    generalize matchEnd tokens text = ending at hending hkept
    cases ending with
    | mismatch => exact absurd rfl hending
    | matched => exact hkept
    | tooShort => exact hkept
  | case6 token tokens htoken =>
    intro rest hrest hmatch
    obtain ⟨c, inner, heq, -, -⟩ := (matches_one_iff htoken).mp hmatch
    rw [List.suffix_nil.mp hrest] at heq
    contradiction
  | case7 token tokens c text htoken hc htells => exact htells.one htoken hc
  | case8 token tokens c text htoken hc =>
    intro hmatch
    obtain ⟨d, rest, heq, hd, -⟩ := (matches_one_iff htoken).mp hmatch
    obtain ⟨rfl, -⟩ := List.cons.inj heq
    exact hc hd

/-- A match ends well exactly if the parts stand for the text. -/
theorem matchEnd_eq_matched_iff {tokens : List KeyToken} {text : List Char} :
    matchEnd tokens text = .matched ↔ Matches tokens text := by
  have htells := tells_matchEnd tokens text
  constructor
  · intro h
    rwa [h] at htells
  · intro h
    generalize matchEnd tokens text = ending at htells
    cases ending with
    | matched => rfl
    | mismatch => exact absurd h htells
    | tooShort => exact absurd h (htells text (List.suffix_refl text))

end KeyToken

/-- A pattern matches the keys that its parts stand for. -/
theorem KeyPattern.matchesKey_iff {p : KeyPattern} {key : String} :
    p.matchesKey key = true ↔ KeyToken.Matches p.tokens key.toList := by
  rw [matchesKey, decide_eq_true_eq, KeyToken.matchEnd_eq_matched_iff]

end SalesQuery
