import SalesQuery.Text.Ascii
import SalesQuery.Text.Blank

/-!
# IP addresses

An address of version 4 is written as four decimal numbers, one of version 6 as eight groups of
hexadecimal digits, of which one run of zeros may be left out. `IpAddress.text` chooses the shortest
such text: it leaves out the longest run of at least two zero groups, the first of equal ones.
-/

namespace SalesQuery

/-- An IP address. -/
inductive IpAddress where
  /-- An address of version 4: four bytes. -/
  | v4 (a b c d : UInt8)
  /-- An address of version 6: groups of 16 bits, eight in a proper address, and the number of the
  scope it is valid in, zero if there is none. -/
  | v6 (groups : List UInt16) (scope : Nat)
deriving DecidableEq, Repr

namespace IpAddress

open Text (digit? hexDigit? natural? splitChars)

/-! ## Reading -/

/-- A byte in decimal digits, without zeros in front. -/
def byte? (l : List Char) : Option UInt8 := do
  let n ← natural? l
  if n < 256 ∧ l.length ≤ 3 ∧ (l.length = 1 ∨ l.head? ≠ some '0') then some n.toUInt8 else none

/-- The bytes of an address of version 4. -/
def quad? (l : List Char) : Option (UInt8 × UInt8 × UInt8 × UInt8) :=
  match (splitChars '.' l).mapM byte? with
  | some [a, b, c, d] => some (a, b, c, d)
  | _ => none

/-- A group of one to four hexadecimal digits. -/
def group? (l : List Char) : Option UInt16 := do
  let digits ← l.mapM hexDigit?
  if 1 ≤ digits.length ∧ digits.length ≤ 4 then
    some (digits.foldl (fun n d => 16 * n + d) 0).toUInt16
  else none

/-- Groups between colons; the last two may be written as an address of version 4. -/
def groups? : List (List Char) → Option (List UInt16)
  | [] => some []
  | [last] =>
    match group? last with
    | some g => some [g]
    | none => (quad? last).map fun (a, b, c, d) =>
        [a.toUInt16 * 256 + b.toUInt16, c.toUInt16 * 256 + d.toUInt16]
  | piece :: rest => return (← group? piece) :: (← groups? rest)

/-- The text before a pair of colons and the text after it. -/
def splitGap? : List Char → Option (List Char × List Char)
  | ':' :: ':' :: rest => some ([], rest)
  | c :: rest => (splitGap? rest).map fun (before, after) => (c :: before, after)
  | [] => none

/-- The groups of a text that may be empty. -/
def side? (l : List Char) : Option (List UInt16) :=
  if l.isEmpty then some [] else groups? (splitChars ':' l)

/-- The eight groups of an address of version 6. Two colons stand for at least one group. -/
def groupsOfText? (l : List Char) : Option (List UInt16) :=
  match splitGap? l with
  | none => (side? l).filter fun groups => groups.length = 8
  | some (before, after) => do
    -- an address of version 4 may stand at the end only
    if before.contains '.' then none
    else
      let front ← side? before
      let back ← side? after
      if front.length + back.length ≤ 7 then
        some (front ++ List.replicate (8 - front.length - back.length) 0 ++ back)
      else none

/-- An address of version 6 with an optional scope after a percent sign. -/
def scopedOfText? (l : List Char) : Option IpAddress := do
  let groups ← groupsOfText? (l.takeWhile (· ≠ '%'))
  match l.dropWhile (· ≠ '%') with
  | [] => return .v6 groups 0
  | _ :: scope =>
    let n ← natural? scope
    if n < Nat.pow 2 32 then return .v6 groups n else none

/-- Reads an address of either version. -/
def ofText? (l : List Char) : Option IpAddress :=
  match quad? l with
  | some (a, b, c, d) => some (.v4 a b c d)
  | none => (groupsOfText? l).map fun groups => .v6 groups 0

/-! ## Writing -/

/-- The hexadecimal digits of a group, without zeros in front. -/
def groupText (g : UInt16) : String := String.ofList (Nat.toDigits 16 g.toNat)

/-- The text of four bytes. -/
def quadText (a b c d : UInt8) : String :=
  ".".intercalate ([a, b, c, d].map fun byte => toString byte.toNat)

/-- How many zero groups a list starts with. -/
def zeroRun (groups : List UInt16) : Nat := (groups.takeWhile (· = 0)).length

/-- The position and the length of the longest run of zeros, the first of equal ones. -/
def longestRun (position : Nat) : List UInt16 → Nat × Nat
  | [] => (position, 0)
  | g :: rest =>
    let here := zeroRun (g :: rest)
    let later := longestRun (position + 1) rest
    if later.2 ≤ here then (position, here) else later

/-- The text of groups between colons. -/
def groupsText (groups : List UInt16) : String := ":".intercalate (groups.map groupText)

/-- The text of the groups of an address of version 6. One that stands for an address of version 4
shows it. -/
def v6Text (groups : List UInt16) : String :=
  match groups with
  | [0, 0, 0, 0, 0, 0xFFFF, high, low] =>
    "::ffff:" ++ quadText (high / 256).toUInt8 (high % 256).toUInt8 (low / 256).toUInt8
      (low % 256).toUInt8
  | _ =>
    let (position, length) := longestRun 0 groups
    if 1 < length then
      groupsText (groups.take position) ++ "::" ++ groupsText (groups.drop (position + length))
    else groupsText groups

end IpAddress

end SalesQuery
