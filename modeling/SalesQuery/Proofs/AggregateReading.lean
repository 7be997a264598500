import SalesQuery.Proofs.AggregateWhitelist
import SalesQuery.Proofs.RequestSpelling

/-!
# Reading a custom aggregate back

The reader of custom aggregates takes each piece as far as it goes and never returns to it. That
loses no text of the grammar, because every piece ends where the next one starts with a character
that cannot belong to it: a name is followed by a mark or a blank, a run of blanks by a name or a
word, and of the five functions none starts another. Only the word `DISTINCT` may also be the front
of a name; it is the word exactly if blanks come after it, and after a name there is a mark
(`skipDistinct_qualified`). So the pieces that a text is written with are the pieces that are read
(`parts?_chars`), and a token that is written in the grammar selects just the custom aggregate that
was written (`resolveMetric_written`), also where columns and aliases spell the words of the
grammar.
-/

namespace SalesQuery.Aggregate

/-! ## ASCII letters -/

/-- The letters of ASCII, with the blanks of Unicode. -/
def asciiLetters : Alphabet := ⟨Char.toLower, Text.isBlank⟩

/-- A text in the grammar with ASCII letters is in that of Unicode. -/
theorem Alphabet.Writes.unicode_of_asciiLetters {p : Pieces} (h : asciiLetters.Writes p) :
    unicode.Writes p := by
  -- The two characters that fold to other letters are neither letters of ASCII nor blanks.
  have hfold (c : Char) (hs : c ≠ 'ſ') (hk : c ≠ '\u212A') :
      asciiLetters.fold c = unicode.fold c := by
    rcases fold_eq_toLower_or c with hfold | rfl | rfl
    · exact hfold.symm
    · contradiction
    · contradiction
  have hchars : ∀ c ∈ p.chars, c ≠ 'ſ' ∧ c ≠ '\u212A' := by
    refine h.forall_chars (by decide) (fun c hc => ⟨?_, ?_⟩) (fun c hc => ⟨?_, ?_⟩)
    all_goals
      rintro rfl
      exact absurd hc (by decide)
  exact h.of_agree fun c hc => ⟨hfold c (hchars c hc).1 (hchars c hc).2, rfl⟩

/-! ## Characters -/

/-- A word is not empty in any spelling. -/
theorem Alphabet.Spells.ne_nil {a : Alphabet} {word : String} {l : List Char}
    (h : a.Spells word l) (hword : word.toList ≠ []) : l ≠ [] := by
  rintro rfl
  exact hword h.symm

/-- A name is not empty. -/
theorem Alphabet.IsName.ne_nil {a : Alphabet} {l : List Char} (h : a.IsName l) : l ≠ [] := by
  obtain ⟨c, rest, rfl, -⟩ := h
  exact List.cons_ne_nil c rest

/-- No character of a name is blank. -/
theorem not_isBlank_of_continuesName {c : Char} (h : unicode.continuesName c) :
    ¬ unicode.isBlank c := by
  rcases continuesName_ascii_or h with hascii | rfl | rfl
  · have hnot : ∀ n < 128, ascii.continuesName (Char.ofNat n) →
        ¬ unicode.isBlank (Char.ofNat n) := by
      decide
    have hc := hnot c.toNat (toNat_lt_of_continuesName hascii)
    rw [Char.ofNat_toNat] at hc
    exact hc hascii
  · decide
  · decide

/-- What is left does not start with a blank. -/
def NoBlankFirst (l : List Char) : Prop := ∀ c ∈ l.head?, ¬ unicode.isBlank c

/-- What is left does not start with a character that goes on with a name. -/
def NoNameFirst (l : List Char) : Prop := ∀ c ∈ l.head?, ¬ unicode.continuesName c

/-- What starts with characters of names does not start with a blank. -/
theorem noBlankFirst_append {l : List Char} (m : List Char) (hne : l ≠ [])
    (h : ∀ c ∈ l, unicode.continuesName c) : NoBlankFirst (l ++ m) := by
  cases l with
  | nil => contradiction
  | cons c l =>
    rintro _ ⟨⟩
    exact not_isBlank_of_continuesName (h c List.mem_cons_self)

/-- What starts with blanks does not start with a character of a name. -/
theorem noNameFirst_append {l : List Char} (m : List Char) (h : unicode.Separates l) :
    NoNameFirst (l ++ m) := by
  obtain ⟨hne, hblank⟩ := h
  cases l with
  | nil => contradiction
  | cons c l =>
    rintro _ ⟨⟩ hc
    exact not_isBlank_of_continuesName hc (hblank c List.mem_cons_self)

/-- Dropping stops at once where the first character is to stay. -/
theorem dropWhile_eq_self {p : Char → Bool} {l : List Char} (h : ∀ c ∈ l.head?, ¬ p c) :
    l.dropWhile p = l := by
  cases l with
  | nil => rfl
  | cons c l => exact List.dropWhile_cons_of_neg (h c rfl)

/-- Taking stops at once where the first character is not to be taken. -/
theorem takeWhile_eq_nil {p : Char → Bool} {l : List Char} (h : ∀ c ∈ l.head?, ¬ p c) :
    l.takeWhile p = [] := by
  cases l with
  | nil => rfl
  | cons c l => exact List.takeWhile_cons_of_neg (h c rfl)

/-! ## The reader takes one piece after another -/

/-- A name is taken up to where it ends. -/
theorem scanName_append {name rest : List Char} (h : unicode.IsName name)
    (hrest : NoNameFirst rest) : scanName (name ++ rest) = some (name, rest) := by
  obtain ⟨c, tail, rfl, hc, htail⟩ := h
  have htake : (tail ++ rest).takeWhile unicode.continuesName = tail := by
    rw [List.takeWhile_append_of_pos htail, takeWhile_eq_nil hrest, List.append_nil]
  have hdrop : (tail ++ rest).dropWhile unicode.continuesName = rest := by
    rw [List.dropWhile_append_of_pos htail, dropWhile_eq_self hrest]
  calc scanName (c :: (tail ++ rest))
    _ = some (c :: (tail ++ rest).takeWhile unicode.continuesName,
          (tail ++ rest).dropWhile unicode.continuesName) := if_pos hc
    _ = some (c :: tail, rest) := by rw [htake, hdrop]

/-- A word is taken in any of its spellings. -/
theorem scanWord_append {word w : List Char} (h : w.map unicode.fold = word) (rest : List Char) :
    scanWord word (w ++ rest) = some rest := by
  induction w generalizing word with
  | nil => rw [← h]; rfl
  | cons c w ih =>
    rw [← h, List.map_cons, List.cons_append, scanWord]
    exact (if_pos rfl).trans (ih rfl)

/-- A run of blanks is taken up to where it ends. -/
theorem scanBlanks_append {blanks rest : List Char} (h : unicode.Separates blanks)
    (hrest : NoBlankFirst rest) : scanBlanks (blanks ++ rest) = some rest := by
  obtain ⟨hne, hblank⟩ := h
  cases blanks with
  | nil => contradiction
  | cons c blanks =>
    obtain ⟨hc, hblanks⟩ := List.forall_mem_cons.mp hblank
    calc scanBlanks (c :: (blanks ++ rest))
      _ = some ((blanks ++ rest).dropWhile unicode.isBlank) := if_pos hc
      _ = some rest := by
        rw [List.dropWhile_append_of_pos hblanks, dropWhile_eq_self hrest]

/-- The name of a function is taken, as none of the five is the front of another. -/
theorem scanFunction_append {w rest : List Char} (h : ∃ f ∈ functions, unicode.Spells f w) :
    scanFunction (w ++ rest) = some rest := by
  have hapart : ∀ f ∈ functions, ∀ g ∈ functions, f.toList <+: g.toList → f = g := by decide
  obtain ⟨f, hf, hw⟩ := h
  have htaken : scanWord f.toList (w ++ rest) = some rest := scanWord_append hw rest
  obtain ⟨left, hleft⟩ : ∃ left, scanFunction (w ++ rest) = some left := by
    rw [← Option.isSome_iff_exists, scanFunction, List.findSome?_isSome_iff]
    exact ⟨f, hf, by rw [htaken]; rfl⟩
  obtain ⟨g, hg, hgleft⟩ := List.exists_of_findSome?_eq_some hleft
  obtain ⟨w', hw', hsplit⟩ := scanWord_eq_some hgleft
  -- Both names start the text, so one of them starts the other.
  have hfg : f = g := by
    rcases List.prefix_or_prefix_of_prefix (List.prefix_append w rest)
      (hsplit ▸ List.prefix_append w' left) with hprefix | hprefix
    · exact hapart f hf g hg (by rw [← hw, ← hw']; exact hprefix.map _)
    · exact (hapart g hg f hf (by rw [← hw, ← hw']; exact hprefix.map _)).symm
  rw [hleft, ← hgleft, ← hfg, htaken]

/-! ## `DISTINCT` and the column -/

/-- The mark after a name is neither a blank nor part of the name. -/
def IsMark (c : Char) : Prop := ¬ unicode.continuesName c ∧ ¬ unicode.isBlank c

instance : DecidablePred IsMark := fun _ => inferInstanceAs (Decidable (_ ∧ _))

/-- What starts with a mark does not start with a character of a name. -/
theorem IsMark.noNameFirst {c : Char} (h : IsMark c) (l : List Char) : NoNameFirst (c :: l) := by
  rintro _ ⟨⟩
  exact h.1

/-- The word is passed over with the blanks after it. -/
theorem skipDistinct_append {w blanks rest : List Char} (hword : unicode.Spells "distinct" w)
    (hblanks : unicode.Separates blanks) (hrest : NoBlankFirst rest) :
    skipDistinct (w ++ blanks ++ rest) = rest := by
  rw [skipDistinct, List.append_assoc, scanWord_append hword, Option.bind_some,
    scanBlanks_append hblanks hrest, Option.getD_some]

/-- Nothing is passed over before a name and a mark, whatever the name starts with. -/
theorem skipDistinct_of_mark {name rest : List Char} {mark : Char}
    (hname : ∀ c ∈ name, unicode.continuesName c) (hmark : IsMark mark) :
    skipDistinct (name ++ mark :: rest) = name ++ mark :: rest := by
  cases hskip : (scanWord "distinct".toList (name ++ mark :: rest)).bind scanBlanks with
  | none => rw [skipDistinct, hskip, Option.getD_none]
  | some left =>
    -- After the word there would be a blank, but the first character that is no letter is the mark.
    obtain ⟨tail, hword, hblanks⟩ := Option.bind_eq_some_iff.mp hskip
    obtain ⟨w, hw, hsplit⟩ := scanWord_eq_some hword
    obtain ⟨blanks, hseparates, rfl⟩ := scanBlanks_eq_some hblanks
    have hletters : ∀ c ∈ w, unicode.continuesName c :=
      Alphabet.Spells.forall_continuesName hw (by decide)
    have hleft : mark :: rest = blanks ++ left := by
      calc mark :: rest
        _ = (name ++ mark :: rest).dropWhile unicode.continuesName := by
          rw [List.dropWhile_append_of_pos hname, dropWhile_eq_self (hmark.noNameFirst rest)]
        _ = blanks ++ left := by
          rw [hsplit, List.dropWhile_append_of_pos hletters,
            dropWhile_eq_self (noNameFirst_append left hseparates)]
    obtain ⟨hne, hblank⟩ := hseparates
    cases blanks with
    | nil => contradiction
    | cons c blanks =>
      obtain rfl := (List.cons.inj hleft).1
      exact absurd (hblank mark List.mem_cons_self) hmark.2

namespace Alphabet.Writes

variable {p : Pieces} (h : unicode.Writes p)

include h

/-- What follows the opening parenthesis, without `DISTINCT`, starts with a name and a mark. -/
theorem exists_name_mark (rest : List Char) :
    ∃ name mark tail, p.qualifierChars ++ (p.column ++ ')' :: rest) = name ++ mark :: tail ∧
      unicode.IsName name ∧ IsMark mark := by
  rw [Pieces.qualifierChars]
  cases hq : p.qualifier with
  | none => exact ⟨p.column, ')', rest, rfl, h.column, by decide⟩
  | some q =>
    exact ⟨q, '.', p.column ++ ')' :: rest, List.append_assoc .., h.qualifier q hq, by decide⟩

/-- Just the word `DISTINCT` and the blanks after it are passed over. -/
theorem skipDistinct_qualified (rest : List Char) :
    skipDistinct (p.distinctChars ++ (p.qualifierChars ++ (p.column ++ ')' :: rest))) =
      p.qualifierChars ++ (p.column ++ ')' :: rest) := by
  obtain ⟨name, mark, tail, hchars, hname, hmark⟩ := h.exists_name_mark rest
  rw [hchars, Pieces.distinctChars]
  cases hd : p.distinct with
  | none => exact skipDistinct_of_mark hname.forall_continuesName hmark
  | some d =>
    obtain ⟨hword, hblanks⟩ := h.distinct d hd
    exact skipDistinct_append hword hblanks
      (noBlankFirst_append _ hname.ne_nil hname.forall_continuesName)

/-- The column is read with its qualifier. -/
theorem scanColumn_qualified (rest : List Char) :
    scanColumn (p.qualifierChars ++ (p.column ++ ')' :: rest)) =
      some ((p.qualifier, p.column), ')' :: rest) := by
  have hclose : IsMark ')' := by decide
  have hdot : IsMark '.' := by decide
  have hcolumn : scanName (p.column ++ ')' :: rest) = some (p.column, ')' :: rest) :=
    scanName_append h.column (hclose.noNameFirst rest)
  rw [Pieces.qualifierChars]
  cases hq : p.qualifier with
  | none =>
    rw [Option.map_none, Option.getD_none, List.nil_append, scanColumn, hcolumn]
    rfl
  | some q =>
    have hqualifier : scanName (q ++ '.' :: (p.column ++ ')' :: rest)) =
        some (q, '.' :: (p.column ++ ')' :: rest)) :=
      scanName_append (h.qualifier q hq) (hdot.noNameFirst _)
    rw [Option.map_some, Option.getD_some, List.append_assoc, List.singleton_append, scanColumn,
      hqualifier]
    show (scanName (p.column ++ ')' :: rest)).bind _ = _
    rw [hcolumn]
    rfl

/-! ## The whole text -/

/-- A text in the grammar is read, and the qualifier and the alias are those that it was written
with. -/
theorem parts?_chars :
    parts? p.chars = some (p.qualifier.map String.ofList, String.ofList p.aliasName) := by
  have hafterWord : NoBlankFirst p.aliasName :=
    List.append_nil p.aliasName ▸
      noBlankFirst_append [] h.aliasName.ne_nil h.aliasName.forall_continuesName
  have hbeforeWord : NoBlankFirst (p.word ++ (p.after ++ p.aliasName)) :=
    noBlankFirst_append _ (h.word.ne_nil (by decide)) (h.word.forall_continuesName (by decide))
  have haliasName : scanName p.aliasName = some (p.aliasName, []) := by
    have hread : scanName (p.aliasName ++ []) = some (p.aliasName, []) :=
      scanName_append h.aliasName nofun
    rwa [List.append_nil] at hread
  rw [parts?, Pieces.chars]
  simp only [Option.bind_eq_bind, Option.bind_some, scanFunction_append h.function, scanChar,
    if_true, h.skipDistinct_qualified, h.scanColumn_qualified,
    scanBlanks_append h.before hbeforeWord, scanWord_append h.word,
    scanBlanks_append h.after hafterWord, haliasName, List.isEmpty_nil]
  rfl

/-- There are no blanks to trim around a text in the grammar. -/
theorem trimChars_chars : Text.trimChars p.chars = p.chars := by
  have hfirst : NoBlankFirst p.chars := by
    obtain ⟨f, hf, hfunction⟩ := h.function
    have hnonempty : ∀ f ∈ functions, f.toList ≠ [] := by decide
    exact noBlankFirst_append _ (hfunction.ne_nil (hnonempty f hf))
      (hfunction.forall_continuesName (letters_of_mem_functions f hf))
  have hlast : NoBlankFirst p.chars.reverse := by
    obtain ⟨front, hfront⟩ : p.aliasName <:+ p.chars :=
      ⟨p.function ++ '(' :: (p.distinctChars ++ (p.qualifierChars ++ (p.column ++ ')' ::
        (p.before ++ (p.word ++ p.after))))), by simp [Pieces.chars]⟩
    rw [← hfront, List.reverse_append]
    exact noBlankFirst_append _ (List.reverse_ne_nil_iff.mpr h.aliasName.ne_nil) fun c hc =>
      h.aliasName.forall_continuesName c (List.mem_reverse.mp hc)
  calc Text.trimChars p.chars
    _ = ((p.chars.dropWhile unicode.isBlank).reverse.dropWhile unicode.isBlank).reverse := rfl
    _ = p.chars := by
      rw [dropWhile_eq_self hfirst, dropWhile_eq_self hlast, List.reverse_reverse]

end Alphabet.Writes

end SalesQuery.Aggregate

/-! ## The selected aggregate -/

namespace SalesQuery

open Aggregate

variable {c : Catalog} {token : String} {a : CustomAggregate} {p : Pieces}

/-- The custom aggregate that is written with pieces. -/
def CustomAggregate.ofPieces (p : Pieces) : CustomAggregate where
  text := String.ofList p.chars
  aliasName := String.ofList p.aliasName
  qualifier := p.qualifier.map fun q => Text.lowerAscii (String.ofList q)

/-- The qualifier is an alias of the catalog, if there is one. -/
def Catalog.KnowsQualifier (c : Catalog) (p : Pieces) : Prop :=
  ∀ q ∈ p.qualifier, c.knowsAlias (Text.lowerAscii (String.ofList q))

/-- Trimming a text in the grammar with blanks around it leaves the text. -/
theorem Text.Padded.trim_chars (htoken : Text.Padded (String.ofList p.chars) token)
    (hp : unicode.Writes p) : Text.trim token = String.ofList p.chars := by
  rw [htoken.trim_eq, Text.trim, String.toList_ofList, hp.trimChars_chars]

/-- The tokens that select custom aggregates are the ones in the grammar, with known qualifiers and
with blanks around them or none, that are not names of metrics. What they select is what they are
written with. -/
theorem resolveMetric_eq_custom_iff :
    resolveMetric c token = .ok (.custom a) ↔
      (c.metric? token).isSome = false ∧ ∃ p, unicode.Writes p ∧
        Text.Padded (String.ofList p.chars) token ∧ c.KnowsQualifier p ∧ a = .ofPieces p := by
  constructor
  · intro h
    obtain ⟨hcatalog, _⟩ | ⟨a', ha, htext, p, hp⟩ := resolveMetric_eq_ok h
    · contradiction
    · obtain rfl := MetricSelection.custom.inj ha
      have hchars : String.ofList p.chars = a.text := by rw [← hp.text, String.ofList_toList]
      have hmetric : ¬ (c.metric? token).isSome := by
        intro hmetric
        rw [resolveMetric, if_pos hmetric] at h
        exact MetricSelection.noConfusion (Except.ok.inj h)
      refine ⟨Bool.eq_false_iff.mpr hmetric, p, hp.writes, ?_, fun q hq => ?_, ?_⟩
      · rw [hchars, htext]
        exact Text.padded_trim token
      · refine hp.known _ ?_
        rw [hp.qualifier, Option.mem_def.mp hq]
        rfl
      · rw [CustomAggregate.ofPieces, hchars, ← hp.aliasName, ← hp.qualifier]
  · rintro ⟨hmetric, p, hp, htoken, hknown, rfl⟩
    have hall : ((p.qualifier.map String.ofList).map Text.lowerAscii).all c.knowsAlias := by
      rw [Option.map_map, Option.all_map]
      exact Option.all_eq_true .. |>.mpr hknown
    rw [resolveMetric, if_neg (Bool.eq_false_iff.mp hmetric)]
    dsimp only
    rw [htoken.trim_chars hp, String.toList_ofList, hp.parts?_chars]
    dsimp only
    rw [if_pos hall, Option.map_map]
    rfl

/-- A token that is written in the grammar, with letters of ASCII and any blanks, selects the metric
that has it as its name. If there is none, it selects a custom aggregate: the text is the token
without the blanks around it, the alias is the last name as it stands, and the qualifier is the name
before the dot in lower case, if there is one. No name is taken for a word of the grammar. -/
theorem resolveMetric_written (hp : asciiLetters.Writes p)
    (htoken : Text.Padded (String.ofList p.chars) token) (hknown : c.KnowsQualifier p) :
    Text.trim token = String.ofList p.chars ∧
      resolveMetric c token =
        if (c.metric? token).isSome then .ok (.catalog token)
        else .ok (.custom (.ofPieces p)) := by
  have hwrites : unicode.Writes p := hp.unicode_of_asciiLetters
  refine ⟨htoken.trim_chars hwrites, ?_⟩
  split
  · rename_i hmetric
    rw [resolveMetric, if_pos hmetric]
  · rename_i hmetric
    exact resolveMetric_eq_custom_iff.mpr
      ⟨Bool.eq_false_iff.mpr hmetric, p, hwrites, htoken, hknown, rfl⟩

/-- The pieces of a count with the words of the grammar as names, in several cases and with several
blanks. -/
def countOfWords : Pieces where
  function := "cOUNT".toList
  distinct := some ("Distinct".toList, "\u2003\t ".toList)
  qualifier := some "S".toList
  column := "distinct".toList
  before := " ".toList
  word := "aS".toList
  after := "\u3000".toList
  aliasName := "As".toList

/-- A column is called `distinct` and an alias `As`. -/
theorem resolveMetric_written_words :
    asciiLetters.Writes countOfWords ∧
      resolveMetric Catalog.restaurant
          "\u00A0cOUNT(Distinct\u2003\t S.distinct) aS\u3000As\n" =
        .ok (.custom ⟨"cOUNT(Distinct\u2003\t S.distinct) aS\u3000As", "As", some "s"⟩) := by
  have hp : asciiLetters.Writes countOfWords := {
    function := ⟨"count", by decide, rfl⟩
    distinct := by
      rintro _ ⟨⟩
      exact ⟨rfl, nofun, List.all_eq_true.mp (by decide)⟩
    qualifier := by
      rintro _ ⟨⟩
      exact ⟨'S', [], rfl, by decide, nofun⟩
    column := ⟨'d', "istinct".toList, rfl, by decide, List.all_eq_true.mp (by decide)⟩
    before := ⟨nofun, List.all_eq_true.mp (by decide)⟩
    word := rfl
    after := ⟨nofun, List.all_eq_true.mp (by decide)⟩
    aliasName := ⟨'A', ['s'], rfl, by decide, List.all_eq_true.mp (by decide)⟩ }
  have htoken : Text.Padded (String.ofList countOfWords.chars)
      "\u00A0cOUNT(Distinct\u2003\t S.distinct) aS\u3000As\n" :=
    ⟨['\u00A0'], ['\n'], List.all_eq_true.mp (by decide), List.all_eq_true.mp (by decide),
      by decide⟩
  have hknown : Catalog.restaurant.KnowsQualifier countOfWords := by
    rintro _ ⟨⟩
    decide +kernel
  have hread := (resolveMetric_written hp htoken hknown).2
  rw [if_neg (by decide +kernel)] at hread
  exact ⟨hp, hread⟩

-- A column is not taken for the word `DISTINCT`, as no blank comes after it.
example : resolveMetric Catalog.restaurant "SUM(distinct) AS as" =
    .ok (.custom ⟨"SUM(distinct) AS as", "as", none⟩) := by decide +kernel

end SalesQuery
