import SalesQuery.Json.Text
import SalesQuery.Proofs.NumberText

/-!
# Unique readability of JSON texts

Two values with one text are equal (`Value.text_inj`). The text of a value is read off the front of
any text that goes on with a comma, a closing bracket or nothing: its first character tells the kind
of value, a string ends at the first quotation mark that is no part of an escape, a number is the
numeral that the scanner finds, and the parts of a list or an object are told apart one by one.
-/

namespace SalesQuery.Json

open Numeral (Ended)

/-! ## Quoted text -/

namespace Quoted

/-- A character between quotation marks is read back as one piece, which stands for it. -/
theorem exists_piece (c : Char) :
    ∃ p, (∀ pieces rest, scan pieces (escape c ++ rest) = scan (p :: pieces) rest) ∧
      ∀ l, join (p :: l) = (join l).map (c :: ·) := by
  have hplain (c : Char) : ∀ l, join (.char c :: l) = (join l).map (c :: ·) := fun l => by rw [join]
  unfold escape
  -- The seven characters with a short escape.
  iterate 7
    split
    · exact ⟨.char c, fun pieces rest => by subst c; rfl, hplain c⟩
  split
  · rename_i hcontrol
    -- A control character is written by its number.
    have hunit : unit? '0' '0' (Text.hexDigit (c.toNat / 16)) (Text.hexDigit (c.toNat % 16)) =
        some c.toNat := by
      have hall : ∀ n < 0x20, unit? '0' '0' (Text.hexDigit (n / 16)) (Text.hexDigit (n % 16)) =
          some n := by decide
      exact hall c.toNat hcontrol
    refine ⟨.unit c.toNat, fun pieces rest => ?_, fun l => ?_⟩
    · simp [scan, hunit]
    · rw [join.eq_def]
      simp only [if_pos (show c.toNat < 0xD800 ∨ 0xDFFF < c.toNat by omega), Char.ofNat_toNat]
  · rename_i hquote hslash _ _ _ _ _ hcontrol
    refine ⟨.char c, fun pieces rest => ?_, hplain c⟩
    rw [List.singleton_append, scan.eq_def]
    split <;> simp_all

/-- A quoted text is read back up to its closing quotation mark. -/
theorem scan_flatMap_escape (l : List Char) :
    ∃ pieces, join pieces = some l ∧ ∀ seen rest,
      scan seen (l.flatMap escape ++ '"' :: rest) = some (seen.reverse ++ pieces, rest) := by
  induction l with
  | nil => exact ⟨[], rfl, fun seen rest => by simp [scan]⟩
  | cons c l ih =>
    obtain ⟨pieces, hjoin, hscan⟩ := ih
    obtain ⟨p, hpiece, hp⟩ := exists_piece c
    refine ⟨p :: pieces, by rw [hp, hjoin, Option.map_some], fun seen rest => ?_⟩
    rw [List.flatMap_cons, List.append_assoc, hpiece, hscan, List.reverse_cons, List.append_assoc,
      List.singleton_append]

/-- Quoted texts are told apart, and their ends found, in any text. -/
theorem write_append_inj {s t : String} {r u : List Char} (h : write s ++ r = write t ++ u) :
    s = t ∧ r = u := by
  obtain ⟨pieces, hjoin, hscan⟩ := scan_flatMap_escape s.toList
  obtain ⟨pieces', hjoin', hscan'⟩ := scan_flatMap_escape t.toList
  have hread := hscan [] r
  have htail : s.toList.flatMap escape ++ '"' :: r = t.toList.flatMap escape ++ '"' :: u := by
    simpa [write] using h
  rw [htail, hscan'] at hread
  obtain ⟨hpieces, rfl⟩ := Prod.mk.inj (Option.some.inj hread)
  rw [List.append_cancel_left hpieces, hjoin] at hjoin'
  exact ⟨String.toList_inj.mp (Option.some.inj hjoin'), rfl⟩

end Quoted

namespace Value

/-! ## Values that a text can hold -/

mutual

/-- The value is one that a JSON text can hold: every number in it is finite, and no object in it
has two members of one name. -/
def Proper : Value → Prop
  | .number n => n.IsFinite
  | .array items => ProperItems items
  | .object members => (members.map (·.1)).Nodup ∧ ProperMembers members
  | _ => True

/-- Every value of the list is proper. -/
def ProperItems : List Value → Prop
  | [] => True
  | v :: rest => Proper v ∧ ProperItems rest

/-- Every named value is proper. -/
def ProperMembers : List (String × Value) → Prop
  | [] => True
  | (_, v) :: rest => Proper v ∧ ProperMembers rest

end

/-- A list is proper if each of its values is. -/
theorem properItems_iff {l : List Value} : ProperItems l ↔ ∀ v ∈ l, v.Proper := by
  induction l with
  | nil => simp [ProperItems]
  | cons v l ih => rw [ProperItems, ih, List.forall_mem_cons]

/-- Named values are proper if each of them is. -/
theorem properMembers_iff {l : List (String × Value)} :
    ProperMembers l ↔ ∀ m ∈ l, m.2.Proper := by
  induction l with
  | nil => simp [ProperMembers]
  | cons m l ih => rw [ProperMembers, ih, List.forall_mem_cons]

/-! ## Kinds -/

/-- The kinds of values that their first character tells apart. -/
inductive Kind where
  /-- The value `null`. -/
  | null
  /-- One of the truth values. -/
  | bool (b : Bool)
  /-- A number. -/
  | number
  /-- A string. -/
  | string
  /-- A list. -/
  | array
  /-- An object. -/
  | object
deriving DecidableEq

/-- The kind of a value. -/
def kind : Value → Kind
  | .null => .null
  | .bool b => .bool b
  | .number _ => .number
  | .string _ => .string
  | .array _ => .array
  | .object _ => .object

/-- The kind of the values that start with a character. -/
def Kind.ofChar (c : Char) : Kind :=
  if c = 'n' then .null
  else if c = 't' then .bool true
  else if c = 'f' then .bool false
  else if c = '"' then .string
  else if c = '[' then .array
  else if c = '\x7b' then .object
  else .number

/-- The first character of a text tells the kind of the value, and is no closing bracket. -/
theorem exists_chars_cons {v : Value} (hv : v.Proper) :
    ∃ c l, v.chars = c :: l ∧ Kind.ofChar c = v.kind ∧ c ≠ ']' := by
  cases v with
  | null => exact ⟨'n', _, rfl, rfl, by decide⟩
  | bool b => cases b <;> exact ⟨_, _, rfl, rfl, by decide⟩
  | string s => exact ⟨'"', _, rfl, rfl, by decide⟩
  | array items => exact ⟨'[', _, rfl, rfl, by decide⟩
  | object members => exact ⟨'\x7b', _, rfl, rfl, by decide⟩
  | number n =>
    obtain ⟨a, -, hscan⟩ := n.scan_text hv
    have hread := hscan [] (by simp [Ended])
    rw [List.append_nil] at hread
    obtain ⟨c, l, hl, hc⟩ := Numeral.exists_head_of_scan hread
    refine ⟨c, l, hl, ?_, ?_⟩
    · have hword (d : Char) (hd : ¬(d = '-' ∨ d.isDigit)) : c ≠ d := fun h => hd (h ▸ hc)
      simp [Kind.ofChar, kind, hword 'n' (by decide), hword 't' (by decide), hword 'f' (by decide),
        hword '"' (by decide), hword '[' (by decide), hword '\x7b' (by decide)]
    · rintro rfl
      exact absurd hc (by decide)

/-! ## Reading values off a text -/

/-- The text goes on as it does after a value: with a comma, with a closing bracket or not at
all. -/
def Delimited (l : List Char) : Prop := ∀ c ∈ l.head?, c = ',' ∨ c = ']' ∨ c = '\x7d'

theorem Delimited.ended {l : List Char} (h : Delimited l) : Ended l := by
  intro c hc
  obtain rfl | rfl | rfl := h c hc <;> decide

/-- The text of the items after the first, up to the closing bracket. -/
def moreItems (l : List Value) (rest : List Char) : List Char :=
  match l with
  | [] => ']' :: rest
  | v :: l => ',' :: (charsItems (v :: l) ++ ']' :: rest)

/-- The text of the members after the first, up to the closing bracket. -/
def moreMembers (l : List (String × Value)) (rest : List Char) : List Char :=
  match l with
  | [] => '\x7d' :: rest
  | m :: l => ',' :: (charsMembers (m :: l) ++ '\x7d' :: rest)

theorem charsItems_cons_append (v : Value) (l : List Value) (rest : List Char) :
    charsItems (v :: l) ++ ']' :: rest = v.chars ++ moreItems l rest := by
  cases l with
  | nil => rw [charsItems, moreItems]
  | cons w l => simp [charsItems, moreItems]

theorem charsMembers_cons_append (m : String × Value) (l : List (String × Value))
    (rest : List Char) :
    charsMembers (m :: l) ++ '\x7d' :: rest =
      Quoted.write m.1 ++ ':' :: (m.2.chars ++ moreMembers l rest) := by
  cases l with
  | nil => simp [charsMembers, moreMembers]
  | cons w l => simp [charsMembers, moreMembers]

theorem delimited_moreItems (l : List Value) (rest : List Char) :
    Delimited (moreItems l rest) := by
  cases l <;> simp [Delimited, moreItems]

theorem delimited_moreMembers (l : List (String × Value)) (rest : List Char) :
    Delimited (moreMembers l rest) := by
  cases l <;> simp [Delimited, moreMembers]

mutual

/-- The value that a text starts with, and what follows it, are determined. -/
theorem chars_append_inj (v w : Value) (hv : v.Proper) (hw : w.Proper) {r t : List Char}
    (hr : Delimited r) (ht : Delimited t) (h : v.chars ++ r = w.chars ++ t) : v = w ∧ r = t := by
  have hkind : v.kind = w.kind := by
    obtain ⟨c, l, hl, hc, -⟩ := exists_chars_cons hv
    obtain ⟨d, m, hm, hd, -⟩ := exists_chars_cons hw
    rw [hl, hm, List.cons_append, List.cons_append, List.cons.injEq] at h
    rw [← hc, ← hd, h.1]
  cases v with
  | null =>
    cases w with
    | null => exact ⟨rfl, List.append_cancel_left h⟩
    | _ => cases hkind
  | bool b =>
    cases w with
    | bool b' =>
      obtain rfl : b = b' := Kind.bool.inj hkind
      exact ⟨rfl, List.append_cancel_left h⟩
    | _ => cases hkind
  | number n =>
    cases w with
    | number k =>
      obtain ⟨rfl, rfl⟩ := Number.text_append_inj hv hw hr.ended ht.ended h
      exact ⟨rfl, rfl⟩
    | _ => cases hkind
  | string s =>
    cases w with
    | string s' =>
      obtain ⟨rfl, rfl⟩ := Quoted.write_append_inj h
      exact ⟨rfl, rfl⟩
    | _ => cases hkind
  | array items =>
    cases w with
    | array items' =>
      have h' : charsItems items ++ ']' :: r = charsItems items' ++ ']' :: t := by
        simpa [chars] using h
      obtain ⟨rfl, rfl⟩ := charsItems_append_inj items items' hv hw h'
      exact ⟨rfl, rfl⟩
    | _ => cases hkind
  | object members =>
    cases w with
    | object members' =>
      have h' : charsMembers members ++ '\x7d' :: r = charsMembers members' ++ '\x7d' :: t := by
        simpa [chars] using h
      obtain ⟨rfl, rfl⟩ := charsMembers_append_inj members members' hv.2 hw.2 h'
      exact ⟨rfl, rfl⟩
    | _ => cases hkind

/-- The values of a list are determined by its text up to the closing bracket. -/
theorem charsItems_append_inj (l m : List Value) (hl : ProperItems l) (hm : ProperItems m)
    {r t : List Char} (h : charsItems l ++ ']' :: r = charsItems m ++ ']' :: t) :
    l = m ∧ r = t := by
  -- An item never starts with the bracket that closes an empty list.
  have hopen (v : Value) (l : List Value) (hv : v.Proper) (r t : List Char) :
      ']' :: r ≠ charsItems (v :: l) ++ ']' :: t := by
    obtain ⟨c, text, htext, -, hc⟩ := exists_chars_cons hv
    rw [charsItems_cons_append, htext]
    exact fun h => hc (List.cons.inj h).1.symm
  cases l with
  | nil =>
    cases m with
    | nil => exact ⟨rfl, (List.cons.inj h).2⟩
    | cons w m => exact absurd h (hopen w m hm.1 r t)
  | cons v l =>
    cases m with
    | nil => exact absurd h.symm (hopen v l hl.1 t r)
    | cons w m =>
      rw [charsItems_cons_append, charsItems_cons_append] at h
      obtain ⟨rfl, hmore⟩ := chars_append_inj v w hl.1 hm.1 (delimited_moreItems l r)
        (delimited_moreItems m t) h
      cases l with
      | nil =>
        cases m with
        | nil => exact ⟨rfl, (List.cons.inj hmore).2⟩
        | cons w m => cases hmore
      | cons v l =>
        cases m with
        | nil => cases hmore
        | cons w m =>
          obtain ⟨heq, rfl⟩ := charsItems_append_inj (v :: l) (w :: m) hl.2 hm.2
            (List.cons.inj hmore).2
          exact ⟨by rw [heq], rfl⟩

/-- The members of an object are determined by its text up to the closing bracket. -/
theorem charsMembers_append_inj (l m : List (String × Value)) (hl : ProperMembers l)
    (hm : ProperMembers m) {r t : List Char}
    (h : charsMembers l ++ '\x7d' :: r = charsMembers m ++ '\x7d' :: t) : l = m ∧ r = t := by
  -- A member starts with a quotation mark.
  have hopen (v : String × Value) (l : List (String × Value)) (r t : List Char) :
      '\x7d' :: r ≠ charsMembers (v :: l) ++ '\x7d' :: t := by
    rw [charsMembers_cons_append]
    exact fun h => absurd (List.cons.inj h).1 (by decide)
  cases l with
  | nil =>
    cases m with
    | nil => exact ⟨rfl, (List.cons.inj h).2⟩
    | cons w m => exact absurd h (hopen w m r t)
  | cons v l =>
    cases m with
    | nil => exact absurd h.symm (hopen v l t r)
    | cons w m =>
      obtain ⟨name, v⟩ := v
      obtain ⟨name', w⟩ := w
      rw [charsMembers_cons_append, charsMembers_cons_append] at h
      obtain ⟨rfl, hvalue⟩ := Quoted.write_append_inj h
      obtain ⟨rfl, hmore⟩ := chars_append_inj v w hl.1 hm.1 (delimited_moreMembers l r)
        (delimited_moreMembers m t) (List.cons.inj hvalue).2
      cases l with
      | nil =>
        cases m with
        | nil => exact ⟨rfl, (List.cons.inj hmore).2⟩
        | cons w m => cases hmore
      | cons v l =>
        cases m with
        | nil => cases hmore
        | cons w m =>
          obtain ⟨heq, rfl⟩ := charsMembers_append_inj (v :: l) (w :: m) hl.2 hm.2
            (List.cons.inj hmore).2
          exact ⟨by rw [heq], rfl⟩

end

/-- Proper values with one text are equal. -/
theorem text_inj {v w : Value} (hv : v.Proper) (hw : w.Proper) (h : v.text = w.text) : v = w := by
  have hchars : v.chars ++ [] = w.chars ++ [] := by
    rw [List.append_nil, List.append_nil]
    exact String.ofList_injective h
  exact (chars_append_inj v w hv hw (by simp [Delimited]) (by simp [Delimited]) hchars).1

end Value

end SalesQuery.Json
