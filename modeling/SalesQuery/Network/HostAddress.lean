import SalesQuery.Network.SocketAddress

/-!
# Hosts that need no looking up

The resolver of a machine without a network: a host is an address of either version, where one of
version 4 may also be written in its older forms, with fewer and larger parts and in other bases. Of
the names of hosts only that of the machine itself is known.
-/

namespace SalesQuery.Resolver

open Text (hexDigit? splitChars)

/-- The number that digits of a base write. -/
def inBase? (base : Nat) (l : List Char) : Option Nat := do
  let digits ← l.mapM hexDigit?
  if digits.isEmpty ∨ digits.any (base ≤ ·) then none
  else some (digits.foldl (fun n d => base * n + d) 0)

/-- A part of an older form: hexadecimal after `0x`, octal after `0`, decimal otherwise. -/
def part? : List Char → Option Nat
  | '0' :: 'x' :: digits => inBase? 16 digits
  | '0' :: 'X' :: digits => inBase? 16 digits
  | '0' :: digits => inBase? 8 ('0' :: digits)
  | digits => inBase? 10 digits

/-- The number that parts write: each but the last is a byte, the last one fills what is left. -/
def joinParts? (bytesLeft : Nat) : List Nat → Option Nat
  | [] => none
  | [last] => if last < Nat.pow 256 bytesLeft then some last else none
  | n :: rest =>
    if n < 256 ∧ 1 < bytesLeft then
      (joinParts? (bytesLeft - 1) rest).map (n * Nat.pow 256 (bytesLeft - 1) + ·)
    else none

/-- An address of version 4 in any of its forms. -/
def v4OfText? (l : List Char) : Option IpAddress := do
  let n ← joinParts? 4 (← (splitChars '.' l).mapM part?)
  let byte (i : Nat) : UInt8 := (n / Nat.pow 256 i).toUInt8
  return .v4 (byte 3) (byte 2) (byte 1) (byte 0)

/-- The address of the machine itself. -/
def localAddress : IpAddress := .v4 127 0 0 1

/-- Reads addresses, and knows the name of the machine itself. -/
def numeric : Resolver := fun host =>
  let l := host.toList
  let address := v4OfText? l <|> IpAddress.scopedOfText? l
    <|> if host = "localhost" then some localAddress else none
  address.map ([·])

end SalesQuery.Resolver
