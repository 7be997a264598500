import SalesQuery.Network.IpAddress
import SalesQuery.Text.Integer

/-!
# Socket addresses

An address with a port. A text that is one names it; any other text names a host and, after its last
colon, a port, and the host is looked up by the system the service runs on (`Resolver`).
-/

namespace SalesQuery

/-- An address with a port. -/
structure SocketAddress where
  /-- The address. -/
  host : IpAddress
  /-- The port. -/
  port : UInt16
deriving DecidableEq, Repr

/-- Looks up the addresses of a host, or fails. -/
abbrev Resolver := String → Option (List IpAddress)

namespace SocketAddress

open Text (natural? unsignedOf?)

/-- The text of a socket address. -/
def text (a : SocketAddress) : String :=
  let port := toString a.port.toNat
  match a.host with
  | .v4 w x y z => IpAddress.quadText w x y z ++ ":" ++ port
  | .v6 groups 0 => "[" ++ IpAddress.v6Text groups ++ "]:" ++ port
  | .v6 groups scope => "[" ++ IpAddress.v6Text groups ++ "%" ++ toString scope ++ "]:" ++ port

/-! ## Reading -/

/-- The text before the last colon and the text after it. -/
def splitPort? (l : List Char) : Option (List Char × List Char) :=
  let port := l.reverse.takeWhile (· ≠ ':')
  match l.reverse.drop port.length with
  | _ :: host => some (host.reverse, port.reverse)
  | [] => none

/-- The address in brackets. -/
def bracketed? : List Char → Option IpAddress
  | '[' :: rest =>
    match rest.reverse with
    | ']' :: inner => IpAddress.scopedOfText? inner.reverse
    | _ => none
  | _ => none

/-- The socket address that a text is: one of version 4 as four numbers or one of version 6 in
brackets, and a port without a sign. -/
def literal? (l : List Char) : Option SocketAddress := do
  let (host, port) ← splitPort? l
  let address ← (IpAddress.quad? host).map (fun (a, b, c, d) => .v4 a b c d) <|> bracketed? host
  let n ← natural? port
  if n < Nat.pow 2 16 then return ⟨address, n.toUInt16⟩ else none

/-- The socket addresses that a text names, or nothing if the port cannot be read or looking up the
host fails. -/
def ofText? (resolve : Resolver) (l : List Char) : Option (List SocketAddress) :=
  match literal? l with
  | some address => some [address]
  | none => do
    let (host, port) ← splitPort? l
    let n ← unsignedOf? 16 port
    let addresses ← resolve (String.ofList host)
    return addresses.map (⟨·, n.toUInt16⟩)

end SocketAddress

end SalesQuery
