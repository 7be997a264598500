/-!
# DER

A value in DER is a tag, the length of its contents in the fewest bytes, and the contents, which may
be values in turn. Tags of more than one byte and contents of 65535 bytes or more are not read.
`DerReader` takes values off the front of a byte string.
-/

namespace SalesQuery

/-- Reads something off the front of a byte string. -/
abbrev DerReader := StateT (List UInt8) Option

namespace Der

/-! ## Tags -/

/-- A truth value. -/
def boolean : UInt8 := 0x01

/-- An integer. -/
def integer : UInt8 := 0x02

/-- A string of bits. -/
def bitString : UInt8 := 0x03

/-- A string of bytes. -/
def octetString : UInt8 := 0x04

/-- An object identifier. -/
def objectId : UInt8 := 0x06

/-- A sequence of values. -/
def sequence : UInt8 := 0x30

/-- Values whose meaning is set by their number in the context. -/
def context (n : UInt8) : UInt8 := 0xA0 + n

/-! ## Reading -/

/-- The length at the front of a byte string, and what follows it. -/
def splitLength? : List UInt8 → Option (Nat × List UInt8)
  | 0x81 :: a :: rest => if a < 0x80 then none else some (a.toNat, rest)
  | 0x82 :: a :: b :: rest =>
    let n := a.toNat * 256 + b.toNat
    if n < 256 ∨ 65535 ≤ n then none else some (n, rest)
  | a :: rest => if a < 0x80 then some (a.toNat, rest) else none
  | [] => none

/-- Reads a value: its tag and its contents. -/
def value : DerReader (UInt8 × List UInt8) := fun bytes =>
  match bytes with
  | [] => none
  | tag :: rest =>
    match splitLength? rest with
    | none => none
    | some (length, rest) =>
      if tag % 32 = 31 ∨ rest.length < length then none
      else some ((tag, rest.take length), rest.drop length)

/-- Reads the contents of a value with a tag. -/
def contents (tag : UInt8) : DerReader (List UInt8) := do
  let (actual, bytes) ← value
  if actual = tag then return bytes else failure

/-- Reads all of a byte string. -/
def all {α : Type} (reader : DerReader α) (bytes : List UInt8) : Option α :=
  match reader bytes with
  | some (a, []) => some a
  | _ => none

/-- Reads all the contents of a value with a tag. -/
def nested {α : Type} (tag : UInt8) (reader : DerReader α) : DerReader α := do
  match all reader (← contents tag) with
  | some a => return a
  | none => failure

/-- Whether the next value has a tag. -/
def startsWith (tag : UInt8) : DerReader Bool := do return (← get).head? = some tag

/-- Whether nothing is left. -/
def atEnd : DerReader Bool := do return (← get).isEmpty

/-- The number that bytes write, most significant first. -/
def ofBytes (bytes : List UInt8) : Nat := bytes.foldl (fun n b => n * 256 + b.toNat) 0

/-- The number in the contents of an integer that is not negative and has no zero byte too many. -/
def natural? : List UInt8 → Option Nat
  | [] => none
  | [a] => if a < 0x80 then some a.toNat else none
  | a :: b :: rest =>
    if 0x80 ≤ a ∨ (a = 0 ∧ b < 0x80) then none else some (ofBytes (a :: b :: rest))

/-- Reads an integer that is not negative. -/
def natural : DerReader Nat := do
  match natural? (← contents integer) with
  | some n => return n
  | none => failure

/-- Reads a string of whole bytes that is tagged as one of bits. -/
def wholeBits : DerReader (List UInt8) := do
  match ← contents bitString with
  | 0 :: bytes => return bytes
  | _ => failure

/-! ## Writing -/

/-- The bytes of a number, most significant first, none for zero. -/
def toBytes (n : Nat) : List UInt8 :=
  if h : n = 0 then []
  else
    have : n / 256 < n := Nat.div_lt_self (Nat.pos_of_ne_zero h) (by decide)
    toBytes (n / 256) ++ [n.toUInt8]

/-- A length below 65536. -/
def lengthBytes (n : Nat) : List UInt8 :=
  if n < 0x80 then [n.toUInt8]
  else if n < 256 then [0x81, n.toUInt8]
  else [0x82, (n / 256).toUInt8, n.toUInt8]

/-- A value with a tag and contents. -/
def write (tag : UInt8) (bytes : List UInt8) : List UInt8 :=
  tag :: (lengthBytes bytes.length ++ bytes)

/-- An integer that is not negative. -/
def writeNatural (n : Nat) : List UInt8 :=
  let bytes := toBytes n
  -- a first byte of 128 or more would make the integer negative
  write integer (if bytes.head?.any (· < 0x80) then bytes else 0 :: bytes)

/-- A string of whole bytes that is tagged as one of bits. -/
def writeBits (bytes : List UInt8) : List UInt8 := write bitString (0 :: bytes)

end Der

end SalesQuery
