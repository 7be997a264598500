import SalesQuery.Tls.Der

/-!
# Certificates

What is looked at of an X.509 certificate: its outline, the extensions that bear on trust, and the
public key. Signatures and dates are not checked. A certificate of the first version, which has no
extensions, may be trusted but cannot identify a client.
-/

namespace SalesQuery

/-- A certificate. -/
structure Certificate where
  /-- The public key with its algorithm: the contents of a sequence. -/
  publicKey : List UInt8
deriving DecidableEq, Repr

namespace Certificate

/-! ## Extensions -/

/-- An extension. -/
structure Extension where
  /-- What identifies the extension. -/
  id : List UInt8
  /-- Whether a reader that does not know the extension has to refuse the certificate. -/
  critical : Bool
  /-- The contents. -/
  value : List UInt8
deriving DecidableEq, Repr

/-- Reads a truth value. -/
def truth : DerReader Bool := do
  match ← Der.contents Der.boolean with
  | [0xFF] => return true
  | [0x00] => return false
  | _ => failure

/-- Reads an extension. -/
def extension : DerReader Extension := do
  let id ← Der.contents Der.objectId
  let critical ← if ← Der.startsWith Der.boolean then truth else pure false
  let value ← Der.contents Der.octetString
  return ⟨id, critical, value⟩

/-- The extension for the use of the key. -/
def keyUsage : UInt8 := 15

/-- The extensions that are known, by the last part of their identifiers: the use of the key, other
names, basic constraints, constraints on names, places of revocation lists and the extended use of
the key. -/
def knownExtensions : List UInt8 := [keyUsage, 17, 19, 30, 31, 37]

/-- The last part of the identifier of a known extension. -/
def Extension.known? (e : Extension) : Option UInt8 :=
  match e.id with
  | [0x55, 0x1D, n] => if knownExtensions.contains n then some n else none
  | _ => none

/-- Whether an extension can be read: one that is not known must not be critical, and one that is
known holds one sequence, except for the use of the key. -/
def Extension.isReadable (e : Extension) : Bool :=
  match e.known? with
  | none => !e.critical
  | some n => n = keyUsage || (Der.all (Der.contents Der.sequence) e.value).isSome

/-- Reads values until nothing is left, at least one; `fuel` bounds their number. -/
def many {α : Type} (reader : DerReader α) : Nat → DerReader (List α)
  | 0 => failure
  | fuel + 1 => do
    let a ← reader
    if ← Der.atEnd then return [a] else return a :: (← many reader fuel)

/-- Reads extensions, each known one at most once. -/
def extensions : DerReader Unit := do
  let bytes ← get
  let l ← many (Der.nested Der.sequence extension) bytes.length
  if l.all Extension.isReadable && (l.filterMap Extension.known?).Nodup then return () else failure

/-! ## Certificates -/

/-- A certificate with its signature put aside. -/
structure Signed where
  /-- What is signed. -/
  signed : List UInt8
  /-- The algorithm of the signature. -/
  algorithm : List UInt8
deriving DecidableEq, Repr

/-- Reads what is signed, the algorithm and the signature. -/
def signed : DerReader Signed :=
  Der.nested Der.sequence do
    let signed ← Der.contents Der.sequence
    let algorithm ← Der.contents Der.sequence
    let _ ← Der.wholeBits
    return ⟨signed, algorithm⟩

/-- Reads the number of a certificate. -/
def serialNumber : DerReader Unit := do let _ ← Der.contents Der.integer

/-- Reads a certificate of the third version. It names the algorithm of its signature once more. -/
def version3 (algorithm : List UInt8) : DerReader Certificate := do
  let version ← Der.nested (Der.context 0) (Der.contents Der.integer)
  serialNumber
  let inner ← Der.contents Der.sequence
  let _issuer ← Der.contents Der.sequence
  let _validity ← Der.contents Der.sequence
  let _subject ← Der.contents Der.sequence
  let publicKey ← Der.contents Der.sequence
  if !(← Der.atEnd) then
    Der.nested (Der.context 3) (Der.nested Der.sequence extensions)
  if version = [2] ∧ inner = algorithm then return ⟨publicKey⟩ else failure

/-- Reads a certificate of the first version. -/
def version1 : DerReader Certificate := do
  serialNumber
  let _algorithm ← Der.contents Der.sequence
  let _issuer ← Der.contents Der.sequence
  let _validity ← Der.contents Der.sequence
  let _subject ← Der.contents Der.sequence
  let publicKey ← Der.contents Der.sequence
  return ⟨publicKey⟩

/-- The certificate in a byte string. -/
def ofBytes? (bytes : List UInt8) : Option Certificate := do
  let s ← Der.all signed bytes
  Der.all (version3 s.algorithm) s.signed

/-- Whether a byte string is a certificate that may be trusted. -/
def isTrustAnchor (bytes : List UInt8) : Bool :=
  match Der.all signed bytes with
  | some s =>
    (Der.all (version3 s.algorithm) s.signed).isSome || (Der.all version1 s.signed).isSome
  | none => false

end Certificate

end SalesQuery
