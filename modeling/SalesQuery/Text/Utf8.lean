/-!
# Reading UTF-8 with faults

Bytes that are not UTF-8 are read as replacement characters, one for each longest beginning of a
character that is not completed.
-/

namespace SalesQuery.Text

/-- The character that stands for bytes that are not UTF-8. -/
def replacement : Char := '\uFFFD'

/-- Whether a byte continues a character. -/
def isContinuation (b : UInt8) : Bool := 0x80 ≤ b && b ≤ 0xBF

/-- The bits of a continuation byte. -/
def continuationBits (b : UInt8) : Nat := b.toNat % 0x40

/-- The second bytes that may follow the first byte of a character of three bytes. Characters below
three bytes and surrogates are left out. -/
def secondOfThree (lead second : UInt8) : Bool :=
  if lead = 0xE0 then 0xA0 ≤ second && second ≤ 0xBF
  else if lead = 0xED then 0x80 ≤ second && second ≤ 0x9F
  else isContinuation second

/-- The second bytes that may follow the first byte of a character of four bytes. Characters below
four bytes and beyond the last code point are left out. -/
def secondOfFour (lead second : UInt8) : Bool :=
  if lead = 0xF0 then 0x90 ≤ second && second ≤ 0xBF
  else if lead = 0xF4 then 0x80 ≤ second && second ≤ 0x8F
  else isContinuation second

/-- The character that starts with byte `a`, and how many of the bytes after it belong to it. A
character that is not completed gives the replacement character, for the bytes that began it. -/
def leading (a : UInt8) (rest : List UInt8) : Char × Nat :=
  if a < 0x80 then (Char.ofNat a.toNat, 0)
  else if 0xC2 ≤ a ∧ a ≤ 0xDF then
    match rest with
    | b :: _ =>
      if isContinuation b then
        (Char.ofNat ((a.toNat - 0xC0) * 0x40 + continuationBits b), 1)
      else (replacement, 0)
    | [] => (replacement, 0)
  else if 0xE0 ≤ a ∧ a ≤ 0xEF then
    match rest with
    | b :: c :: _ =>
      if secondOfThree a b then
        if isContinuation c then
          (Char.ofNat (((a.toNat - 0xE0) * 0x40 + continuationBits b) * 0x40
            + continuationBits c), 2)
        else (replacement, 1)
      else (replacement, 0)
    | [b] => (replacement, if secondOfThree a b then 1 else 0)
    | [] => (replacement, 0)
  else if 0xF0 ≤ a ∧ a ≤ 0xF4 then
    match rest with
    | b :: c :: d :: _ =>
      if secondOfFour a b then
        if isContinuation c then
          if isContinuation d then
            (Char.ofNat ((((a.toNat - 0xF0) * 0x40 + continuationBits b) * 0x40
              + continuationBits c) * 0x40 + continuationBits d), 3)
          else (replacement, 2)
        else (replacement, 1)
      else (replacement, 0)
    | [b, c] =>
      (replacement, if secondOfFour a b then if isContinuation c then 2 else 1 else 0)
    | [b] => (replacement, if secondOfFour a b then 1 else 0)
    | [] => (replacement, 0)
  else (replacement, 0)

/-- The characters of a byte string. -/
def decodeLossy : List UInt8 → List Char
  | [] => []
  | a :: rest => (leading a rest).1 :: decodeLossy (rest.drop (leading a rest).2)
termination_by bytes => bytes.length
decreasing_by simp only [List.length_cons, List.length_drop]; omega

/-- The UTF-8 bytes of a list of characters. -/
def encodeUtf8 (l : List Char) : List UInt8 := (String.ofList l).toUTF8.toList

/-- The text of a byte string, if it is UTF-8. -/
def decodeUtf8? (bytes : List UInt8) : Option String :=
  let text := String.ofList (decodeLossy bytes)
  if text.toUTF8.toList = bytes then some text else none

end SalesQuery.Text
