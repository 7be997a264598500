import Mathlib.Data.List.TakeWhile
import SalesQuery.Query.Aggregate

/-!
# The grammar of custom aggregates

A custom aggregate is written `F(C) AS A`, with an optional `DISTINCT` and an optional qualifier of
the column. `Pieces` are the parts of such a text and `Alphabet.Writes` is the grammar, for any
choice of case variants and blanks (`Alphabet`): `unicode` is the choice that texts are read with,
`ascii` the one of ASCII letters and blanks only. Every text that the reader accepts is written in
`unicode` (`exists_pieces_of_parts?`), and two alphabets that agree on a text agree on whether it is
in the grammar (`Alphabet.Writes.of_agree`).
-/

namespace SalesQuery.Aggregate

/-! ## Alphabets -/

/-- What stands for which letter, and what is blank. -/
structure Alphabet where
  /-- The lower case ASCII letter that a character stands for, or the character itself. -/
  fold : Char → Char
  /-- Whether a character is blank. -/
  isBlank : Char → Bool

/-- The letters with their case variants in Unicode, and the blanks of Unicode. -/
def unicode : Alphabet := ⟨fold, Text.isBlank⟩

/-- The letters and blanks of ASCII. -/
def ascii : Alphabet :=
  ⟨Char.toLower, fun c => c.toNat = 0x20 || (0x09 ≤ c.toNat && c.toNat ≤ 0x0D)⟩

namespace Alphabet

/-- Whether a name may start with the character. -/
def startsName (a : Alphabet) (c : Char) : Bool :=
  a.fold c = '_' || ('a' ≤ a.fold c && a.fold c ≤ 'z')

/-- Whether a name may go on with the character. -/
def continuesName (a : Alphabet) (c : Char) : Bool := a.startsName c || c.isDigit

/-- A text is a name: it starts with a letter or an underscore, and goes on with letters, digits and
underscores. -/
def IsName (a : Alphabet) (l : List Char) : Prop :=
  ∃ c rest, l = c :: rest ∧ a.startsName c ∧ ∀ d ∈ rest, a.continuesName d

/-- A text is a word, which is given in lower case, in some case. -/
def Spells (a : Alphabet) (word : String) (l : List Char) : Prop := l.map a.fold = word.toList

/-- A text is a run of blanks, and not empty. -/
def Separates (a : Alphabet) (l : List Char) : Prop := l ≠ [] ∧ ∀ c ∈ l, a.isBlank c

end Alphabet

/-! ## Pieces -/

/-- The pieces that a custom aggregate is written with. -/
structure Pieces where
  /-- The name of the function. -/
  function : List Char
  /-- The word `DISTINCT` and the blanks after it, if it is there. -/
  distinct : Option (List Char × List Char)
  /-- The qualifier of the column, if it has one. -/
  qualifier : Option (List Char)
  /-- The name of the column. -/
  column : List Char
  /-- The blanks before `AS`. -/
  before : List Char
  /-- The word `AS`. -/
  word : List Char
  /-- The blanks after `AS`. -/
  after : List Char
  /-- The alias. -/
  aliasName : List Char

namespace Pieces

/-- The text of `DISTINCT` and the blanks after it. -/
def distinctChars (p : Pieces) : List Char := (p.distinct.map fun d => d.1 ++ d.2).getD []

/-- The text of the qualifier and its dot. -/
def qualifierChars (p : Pieces) : List Char := (p.qualifier.map fun q => q ++ ['.']).getD []

/-- The whole text. -/
def chars (p : Pieces) : List Char :=
  p.function ++ '(' :: (p.distinctChars ++ (p.qualifierChars ++ (p.column ++ ')' ::
    (p.before ++ (p.word ++ (p.after ++ p.aliasName))))))

end Pieces

/-- The grammar: which pieces make up a custom aggregate in an alphabet. -/
structure Alphabet.Writes (a : Alphabet) (p : Pieces) : Prop where
  /-- The function is one of the five. -/
  function : ∃ f ∈ functions, a.Spells f p.function
  /-- The word `DISTINCT` is followed by blanks. -/
  distinct : ∀ d ∈ p.distinct, a.Spells "distinct" d.1 ∧ a.Separates d.2
  /-- The qualifier is a name. -/
  qualifier : ∀ q ∈ p.qualifier, a.IsName q
  /-- The column is a name. -/
  column : a.IsName p.column
  /-- Blanks stand before `AS`. -/
  before : a.Separates p.before
  /-- The word between the column and the alias is `AS`. -/
  word : a.Spells "as" p.word
  /-- Blanks stand after `AS`. -/
  after : a.Separates p.after
  /-- The alias is a name. -/
  aliasName : a.IsName p.aliasName

namespace Alphabet

variable {a b : Alphabet} {p : Pieces} {l : List Char}

/-! ## Characters of a text in the grammar -/

/-- A name is made of characters that a name may go on with. -/
theorem IsName.forall_continuesName (h : a.IsName l) : ∀ c ∈ l, a.continuesName c := by
  obtain ⟨c, rest, rfl, hc, hrest⟩ := h
  refine List.forall_mem_cons.mpr ⟨?_, hrest⟩
  rw [continuesName, hc, Bool.true_or]

/-- The characters of a word of letters may stand in a name. -/
theorem Spells.forall_continuesName {word : String} (h : a.Spells word l)
    (hword : word.toList.all fun c => 'a' ≤ c && c ≤ 'z') : ∀ c ∈ l, a.continuesName c := by
  intro c hc
  have hfold : a.fold c ∈ word.toList := h ▸ List.mem_map_of_mem hc
  have hletter : ('a' ≤ a.fold c && a.fold c ≤ 'z') = true := List.all_eq_true.mp hword _ hfold
  rw [continuesName, startsName, hletter, Bool.or_true, Bool.true_or]

/-- The names of the functions are made of letters. -/
theorem letters_of_mem_functions :
    ∀ f ∈ functions, f.toList.all fun c => 'a' ≤ c && c ≤ 'z' := by
  decide

/-- What holds of parentheses and dots, of the characters of names and of blanks holds of all
characters of a text in the grammar. -/
theorem Writes.forall_chars (h : a.Writes p) {P : Char → Prop} (hmarks : P '(' ∧ P '.' ∧ P ')')
    (hname : ∀ c, a.continuesName c → P c) (hblank : ∀ c, a.isBlank c → P c) :
    ∀ c ∈ p.chars, P c := by
  have hdistinct : ∀ c ∈ p.distinctChars, P c := by
    rw [Pieces.distinctChars]
    cases hd : p.distinct with
    | none => simp
    | some d =>
      obtain ⟨hword, hblanks⟩ := h.distinct d hd
      refine List.forall_mem_append.mpr ⟨fun c hc => ?_, fun c hc => hblank c (hblanks.2 c hc)⟩
      exact hname c (hword.forall_continuesName (by decide) c hc)
  have hqualifier : ∀ c ∈ p.qualifierChars, P c := by
    rw [Pieces.qualifierChars]
    cases hq : p.qualifier with
    | none => simp
    | some q =>
      refine List.forall_mem_append.mpr ⟨fun c hc => ?_, by simpa using hmarks.2.1⟩
      exact hname c ((h.qualifier q hq).forall_continuesName c hc)
  obtain ⟨f, hf, hfunction⟩ := h.function
  simp only [Pieces.chars, List.forall_mem_append, List.forall_mem_cons]
  exact ⟨fun c hc => hname c (hfunction.forall_continuesName (letters_of_mem_functions f hf) c hc),
    hmarks.1, hdistinct, hqualifier, fun c hc => hname c (h.column.forall_continuesName c hc),
    hmarks.2.2, fun c hc => hblank c (h.before.2 c hc),
    fun c hc => hname c (h.word.forall_continuesName (by decide) c hc),
    fun c hc => hblank c (h.after.2 c hc),
    fun c hc => hname c (h.aliasName.forall_continuesName c hc)⟩

/-! ## Change of alphabet -/

/-- Two alphabets read a text in the same way. -/
def Agree (a b : Alphabet) (l : List Char) : Prop :=
  ∀ c ∈ l, a.fold c = b.fold c ∧ a.isBlank c = b.isBlank c

/-- Alphabets that agree on a text agree on its parts. -/
theorem Agree.mono {m : List Char} (h : Agree a b l) (hsub : m ⊆ l) : Agree a b m :=
  fun c hc => h c (hsub hc)

/-- A name is one in every alphabet that agrees on it. -/
theorem IsName.of_agree (h : a.IsName l) (hagree : Agree a b l) : b.IsName l := by
  obtain ⟨c, rest, rfl, hc, hrest⟩ := h
  obtain ⟨hfirst, hagree⟩ := List.forall_mem_cons.mp hagree
  refine ⟨c, rest, rfl, ?_, fun d hd => ?_⟩
  · rwa [startsName, ← hfirst.1]
  · rw [continuesName, startsName, ← (hagree d hd).1]
    exact hrest d hd

/-- A text spells a word in every alphabet that agrees on it. -/
theorem Spells.of_agree {word : String} (h : a.Spells word l) (hagree : Agree a b l) :
    b.Spells word l := by
  rw [Spells, ← List.map_congr_left fun c hc => (hagree c hc).1]
  exact h

/-- Blanks are blanks in every alphabet that agrees on them. -/
theorem Separates.of_agree (h : a.Separates l) (hagree : Agree a b l) : b.Separates l :=
  ⟨h.1, fun c hc => (hagree c hc).2 ▸ h.2 c hc⟩

/-- A text is in the grammar of every alphabet that agrees on it. -/
theorem Writes.of_agree (h : a.Writes p) (hagree : Agree a b p.chars) : b.Writes p := by
  obtain ⟨f, hf, hfunction⟩ := h.function
  have hdistinct : ∀ d ∈ p.distinct, d.1 ++ d.2 ⊆ p.chars := by
    intro d hd c hc
    rw [Pieces.chars, Pieces.distinctChars, Option.mem_def.mp hd]
    exact List.mem_append_right _ (List.mem_cons_of_mem _ (List.mem_append_left _ hc))
  have hqualifier : ∀ q ∈ p.qualifier, q ⊆ p.chars := by
    intro q hq c hc
    rw [Pieces.chars, Pieces.qualifierChars, Option.mem_def.mp hq]
    refine List.mem_append_right _ (List.mem_cons_of_mem _ (List.mem_append_right _ ?_))
    exact List.mem_append_left _ (List.mem_append_left _ hc)
  refine ⟨⟨f, hf, hfunction.of_agree (hagree.mono ?_)⟩, fun d hd => ?_,
    fun q hq => (h.qualifier q hq).of_agree (hagree.mono (hqualifier q hq)),
    h.column.of_agree (hagree.mono ?_), h.before.of_agree (hagree.mono ?_),
    h.word.of_agree (hagree.mono ?_), h.after.of_agree (hagree.mono ?_),
    h.aliasName.of_agree (hagree.mono ?_)⟩
  case refine_2 =>
    obtain ⟨hword, hblanks⟩ := h.distinct d hd
    obtain ⟨hleft, hright⟩ := List.append_subset.mp (hdistinct d hd)
    exact ⟨hword.of_agree (hagree.mono hleft), hblanks.of_agree (hagree.mono hright)⟩
  -- The other pieces stand in the text as they are.
  all_goals
    intro c hc
    simp [Pieces.chars, hc]

end Alphabet

/-! ## The reader -/

/-- A name is read off the front. -/
theorem scanName_eq_some {l name rest : List Char} (h : scanName l = some (name, rest)) :
    unicode.IsName name ∧ l = name ++ rest := by
  cases l with
  | nil => contradiction
  | cons c l =>
    rw [scanName] at h
    split at h
    · rename_i hc
      obtain ⟨rfl, rfl⟩ := Prod.mk.inj (Option.some.inj h)
      refine ⟨⟨c, _, rfl, hc, fun d hd => List.mem_takeWhile_imp hd⟩, ?_⟩
      rw [List.cons_append, List.takeWhile_append_dropWhile]
    · contradiction

/-- A word is read off the front. -/
theorem scanWord_eq_some {word l rest : List Char} (h : scanWord word l = some rest) :
    ∃ w, w.map unicode.fold = word ∧ l = w ++ rest := by
  induction word generalizing l with
  | nil => exact ⟨[], rfl, Option.some.inj h⟩
  | cons first word ih =>
    cases l with
    | nil => contradiction
    | cons c l =>
      rw [scanWord] at h
      split at h
      · rename_i hc
        obtain ⟨w, rfl, rfl⟩ := ih h
        exact ⟨c :: w, by rw [List.map_cons]; exact congrArg (· :: _) hc, rfl⟩
      · contradiction

/-- Blanks are read off the front. -/
theorem scanBlanks_eq_some {l rest : List Char} (h : scanBlanks l = some rest) :
    ∃ blanks, unicode.Separates blanks ∧ l = blanks ++ rest := by
  cases l with
  | nil => contradiction
  | cons c l =>
    rw [scanBlanks] at h
    split at h
    · rename_i hc
      obtain rfl := Option.some.inj h
      refine ⟨c :: l.takeWhile Text.isBlank, ⟨List.cons_ne_nil _ _, ?_⟩, ?_⟩
      · exact List.forall_mem_cons.mpr ⟨hc, fun d hd => List.mem_takeWhile_imp hd⟩
      · rw [List.cons_append, List.takeWhile_append_dropWhile]
    · contradiction

/-- A character is read off the front. -/
theorem scanChar_eq_some {expected : Char} {l rest : List Char}
    (h : scanChar expected l = some rest) : l = expected :: rest := by
  cases l with
  | nil => contradiction
  | cons c l =>
    rw [scanChar] at h
    split at h
    · rename_i hc
      rw [hc, Option.some.inj h]
    · contradiction

/-- The name of a function is read off the front. -/
theorem scanFunction_eq_some {l rest : List Char} (h : scanFunction l = some rest) :
    ∃ w, (∃ f ∈ functions, unicode.Spells f w) ∧ l = w ++ rest := by
  obtain ⟨f, hf, hword⟩ := List.exists_of_findSome?_eq_some h
  obtain ⟨w, hw, rfl⟩ := scanWord_eq_some hword
  exact ⟨w, ⟨f, hf, hw⟩, rfl⟩

/-- What is passed over before a column is `DISTINCT` with blanks, or nothing. -/
theorem skipDistinct_spec (l : List Char) :
    ∃ distinct : Option (List Char × List Char),
      (∀ d ∈ distinct, unicode.Spells "distinct" d.1 ∧ unicode.Separates d.2) ∧
        l = (distinct.map fun d => d.1 ++ d.2).getD [] ++ skipDistinct l := by
  rw [skipDistinct]
  cases h : (scanWord "distinct".toList l).bind scanBlanks with
  | none => exact ⟨none, by simp, rfl⟩
  | some rest =>
    obtain ⟨m, hword, hblanks⟩ := Option.bind_eq_some_iff.mp h
    obtain ⟨w, hw, rfl⟩ := scanWord_eq_some hword
    obtain ⟨blanks, hseparates, rfl⟩ := scanBlanks_eq_some hblanks
    refine ⟨some (w, blanks), ?_, ?_⟩
    · rintro _ ⟨⟩
      exact ⟨hw, hseparates⟩
    · exact (List.append_assoc w blanks rest).symm

/-- A column is read off the front, with its qualifier if it has one. -/
theorem scanColumn_eq_some {l rest column : List Char} {qualifier : Option (List Char)}
    (h : scanColumn l = some ((qualifier, column), rest)) :
    (∀ q ∈ qualifier, unicode.IsName q) ∧ unicode.IsName column ∧
      l = (qualifier.map fun q => q ++ ['.']).getD [] ++ (column ++ rest) := by
  obtain ⟨⟨first, l'⟩, hfirst, hmore⟩ := Option.bind_eq_some_iff.mp h
  obtain ⟨hname, rfl⟩ := scanName_eq_some hfirst
  dsimp only at hmore
  split at hmore
  · obtain ⟨⟨second, rest'⟩, hsecond, hresult⟩ := Option.bind_eq_some_iff.mp hmore
    obtain ⟨hcolumn, rfl⟩ := scanName_eq_some hsecond
    cases hresult
    refine ⟨?_, hcolumn, by simp⟩
    rintro _ ⟨⟩
    exact hname
  · cases hmore
    exact ⟨by simp, hname, by simp⟩

/-- A text that the reader accepts is in the grammar of Unicode, and the qualifier and the alias are
those of the text. -/
theorem exists_pieces_of_parts? {l : List Char} {qualifier : Option String} {aliasName : String}
    (h : parts? l = some (qualifier, aliasName)) :
    ∃ p : Pieces, unicode.Writes p ∧ l = p.chars ∧ qualifier = p.qualifier.map String.ofList ∧
      aliasName = String.ofList p.aliasName := by
  -- What each step leaves unread is named by its number; the last one has to leave nothing.
  obtain ⟨l₁, hfunction, h⟩ := Option.bind_eq_some_iff.mp h
  obtain ⟨l₂, hopen, h⟩ := Option.bind_eq_some_iff.mp h
  obtain ⟨⟨⟨q, column⟩, l₃⟩, hcolumn, h⟩ := Option.bind_eq_some_iff.mp h
  obtain ⟨l₄, hclose, h⟩ := Option.bind_eq_some_iff.mp h
  obtain ⟨l₅, hbefore, h⟩ := Option.bind_eq_some_iff.mp h
  obtain ⟨l₆, hword, h⟩ := Option.bind_eq_some_iff.mp h
  obtain ⟨l₇, hafter, h⟩ := Option.bind_eq_some_iff.mp h
  obtain ⟨⟨name, l₈⟩, hname, h⟩ := Option.bind_eq_some_iff.mp h
  dsimp only at h
  split at h
  · rename_i hempty
    obtain rfl := List.isEmpty_iff.mp hempty
    cases h
    obtain ⟨function, hspells₁, rfl⟩ := scanFunction_eq_some hfunction
    obtain rfl := scanChar_eq_some hopen
    obtain ⟨distinct, hdistinct, hskip⟩ := skipDistinct_spec l₂
    obtain ⟨hqualifier, hname₁, htail⟩ := scanColumn_eq_some hcolumn
    obtain rfl := scanChar_eq_some hclose
    obtain ⟨before, hblanks₁, rfl⟩ := scanBlanks_eq_some hbefore
    obtain ⟨word, hspells₂, rfl⟩ := scanWord_eq_some hword
    obtain ⟨after, hblanks₂, rfl⟩ := scanBlanks_eq_some hafter
    obtain ⟨hname₂, rfl⟩ := scanName_eq_some hname
    refine ⟨⟨function, distinct, q, column, before, word, after, name⟩,
      ⟨hspells₁, hdistinct, hqualifier, hname₁, hblanks₁, hspells₂, hblanks₂, hname₂⟩, ?_, rfl,
      rfl⟩
    rw [hskip, htail, List.append_nil]
    rfl
  · contradiction

end SalesQuery.Aggregate
