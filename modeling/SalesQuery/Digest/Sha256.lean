import SalesQuery.Text.Ascii

/-!
# SHA-256

The digest of a byte string: the message is padded to blocks of 512 bits, each block is expanded to
sixty-four words, and the compression function folds the blocks into a state of eight words.
-/

namespace SalesQuery.Sha256

/-- The fractional parts of the cube roots of the first sixty-four primes. -/
def roundConstants : List UInt32 :=
  [
    0x428a2f98, 0x71374491, 0xb5c0fbcf, 0xe9b5dba5, 0x3956c25b, 0x59f111f1,
    0x923f82a4, 0xab1c5ed5, 0xd807aa98, 0x12835b01, 0x243185be, 0x550c7dc3,
    0x72be5d74, 0x80deb1fe, 0x9bdc06a7, 0xc19bf174, 0xe49b69c1, 0xefbe4786,
    0x0fc19dc6, 0x240ca1cc, 0x2de92c6f, 0x4a7484aa, 0x5cb0a9dc, 0x76f988da,
    0x983e5152, 0xa831c66d, 0xb00327c8, 0xbf597fc7, 0xc6e00bf3, 0xd5a79147,
    0x06ca6351, 0x14292967, 0x27b70a85, 0x2e1b2138, 0x4d2c6dfc, 0x53380d13,
    0x650a7354, 0x766a0abb, 0x81c2c92e, 0x92722c85, 0xa2bfe8a1, 0xa81a664b,
    0xc24b8b70, 0xc76c51a3, 0xd192e819, 0xd6990624, 0xf40e3585, 0x106aa070,
    0x19a4c116, 0x1e376c08, 0x2748774c, 0x34b0bcb5, 0x391c0cb3, 0x4ed8aa4a,
    0x5b9cca4f, 0x682e6ff3, 0x748f82ee, 0x78a5636f, 0x84c87814, 0x8cc70208,
    0x90befffa, 0xa4506ceb, 0xbef9a3f7, 0xc67178f2]

/-- The eight words of the state. -/
structure State where
  /-- First word. -/
  a : UInt32
  /-- Second word. -/
  b : UInt32
  /-- Third word. -/
  c : UInt32
  /-- Fourth word. -/
  d : UInt32
  /-- Fifth word. -/
  e : UInt32
  /-- Sixth word. -/
  f : UInt32
  /-- Seventh word. -/
  g : UInt32
  /-- Eighth word. -/
  h : UInt32
deriving DecidableEq, Repr

/-- The fractional parts of the square roots of the first eight primes. -/
def State.initial : State :=
  ⟨0x6a09e667, 0xbb67ae85, 0x3c6ef372, 0xa54ff53a,
    0x510e527f, 0x9b05688c, 0x1f83d9ab, 0x5be0cd19⟩

/-- The words of a state in order. -/
def State.words (s : State) : List UInt32 := [s.a, s.b, s.c, s.d, s.e, s.f, s.g, s.h]

/-- Rotation to the right. -/
def rotate (x : UInt32) (n : UInt32) : UInt32 := (x >>> n) ||| (x <<< (32 - n))

/-- One round, with the word of the schedule and the constant of the round. -/
def State.round (s : State) (word constant : UInt32) : State :=
  let mixE := rotate s.e 6 ^^^ rotate s.e 11 ^^^ rotate s.e 25
  let choice := (s.e &&& s.f) ^^^ (~~~s.e &&& s.g)
  let first := s.h + mixE + choice + constant + word
  let mixA := rotate s.a 2 ^^^ rotate s.a 13 ^^^ rotate s.a 22
  let majority := (s.a &&& s.b) ^^^ (s.a &&& s.c) ^^^ (s.b &&& s.c)
  ⟨first + (mixA + majority), s.a, s.b, s.c, s.d + first, s.e, s.f, s.g⟩

/-- The sum of two states, word by word. -/
def State.add (s t : State) : State :=
  ⟨s.a + t.a, s.b + t.b, s.c + t.c, s.d + t.d, s.e + t.e, s.f + t.f, s.g + t.g, s.h + t.h⟩

/-- Appends to a schedule the words that its last sixteen determine. -/
def extend : Nat → Array UInt32 → Array UInt32
  | 0, w => w
  | more + 1, w =>
    let back (n : Nat) : UInt32 := w.getD (w.size - n) 0
    let x := back 15
    let y := back 2
    let small := rotate x 7 ^^^ rotate x 18 ^^^ (x >>> 3)
    let large := rotate y 17 ^^^ rotate y 19 ^^^ (y >>> 10)
    extend more (w.push (back 16 + small + back 7 + large))

/-- Folds a block of sixteen words into the state. -/
def compress (s : State) (block : List UInt32) : State :=
  let schedule := (extend 48 block.toArray).toList
  s.add ((schedule.zip roundConstants).foldl (fun t p => t.round p.1 p.2) s)

/-- The word of four bytes, the most significant first. -/
def word (a b c d : UInt8) : UInt32 :=
  (a.toUInt32 <<< 24) ||| (b.toUInt32 <<< 16) ||| (c.toUInt32 <<< 8) ||| d.toUInt32

/-- The words of a byte string whose length is a multiple of four. -/
def words : List UInt8 → List UInt32
  | a :: b :: c :: d :: rest => word a b c d :: words rest
  | _ => []

/-- The message with a one bit, zeros, and its length in bits as eight bytes, so that the whole is a
multiple of sixty-four bytes. -/
def pad (message : List UInt8) : List UInt8 :=
  let size := message.length
  let zeros := (119 - size % 64) % 64
  let length := (List.range 8).reverse.map fun i => UInt8.ofNat (8 * size / Nat.pow 256 i)
  message ++ 0x80 :: (List.replicate zeros 0 ++ length)

/-- Folds the words into the state, sixteen at a time. -/
def compressAll (s : State) (l : List UInt32) : State :=
  if l.length < 16 then s
  else compressAll (compress s (l.take 16)) (l.drop 16)
termination_by l.length
decreasing_by simp only [List.length_drop]; omega

/-- The final state of a message. -/
def digest (message : List UInt8) : State := compressAll .initial (words (pad message))

/-- A word as eight hexadecimal digits. -/
def hexWord (w : UInt32) : List Char :=
  (List.range 8).reverse.map fun i => Text.hexDigit (w.toNat / Nat.pow 16 i % 16)

/-- The digest of a text's UTF-8 bytes, as sixty-four lower case hexadecimal digits. -/
def hexDigest (s : String) : String :=
  String.ofList ((digest s.toUTF8.toList).words.flatMap hexWord)

end SalesQuery.Sha256
