import SalesQuery.Tls.CurveP256
import SalesQuery.Tls.Der
import SalesQuery.Tls.Pem

/-!
# Private keys

A key of RSA or on the curve P-256, with the public key that belongs to it. A key is refused if its
parts do not fit each other.
-/

namespace SalesQuery

/-- A private key, of which only the public part is kept. -/
inductive PrivateKey where
  /-- A key on the curve, by the bytes of its public point. -/
  | ec (point : List UInt8)
  /-- A key of RSA, by its modulus and its public exponent. -/
  | rsa (modulus exponent : Nat)
deriving DecidableEq, Repr

namespace PrivateKey

/-! ## Algorithms -/

/-- The identifier of the curve. -/
def curveId : List UInt8 :=
  Der.write Der.objectId [0x2A, 0x86, 0x48, 0xCE, 0x3D, 0x03, 0x01, 0x07]

/-- The algorithm of keys on the curve: elliptic curves, and the curve. -/
def ecAlgorithm : List UInt8 :=
  Der.write Der.objectId [0x2A, 0x86, 0x48, 0xCE, 0x3D, 0x02, 0x01] ++ curveId

/-- The algorithm of keys of RSA, without parameters. -/
def rsaAlgorithm : List UInt8 :=
  Der.write Der.objectId [0x2A, 0x86, 0x48, 0x86, 0xF7, 0x0D, 0x01, 0x01, 0x01] ++ [0x05, 0x00]

/-- The public key with its algorithm, as certificates carry it. -/
def publicKey : PrivateKey → List UInt8
  | .ec point => Der.write Der.sequence ecAlgorithm ++ Der.writeBits point
  | .rsa modulus exponent =>
    Der.write Der.sequence rsaAlgorithm
      ++ Der.writeBits
        (Der.write Der.sequence (Der.writeNatural modulus ++ Der.writeNatural exponent))

/-! ## Keys on the curve -/

/-- A number in 32 bytes. -/
def bytes32 (n : Nat) : List UInt8 := (List.range 32).map fun i => (n / Nat.pow 256 (31 - i)).toUInt8

/-- The bytes of the public point of a secret number. -/
def pointBytes (secret : Nat) : List UInt8 :=
  let (x, y) := (CurveP256.multiple secret).coordinates
  0x04 :: (bytes32 x ++ bytes32 y)

/-- Reads a key on the curve: a secret number, optionally the curve, and the public point. -/
def ecKey : DerReader PrivateKey :=
  Der.nested Der.sequence do
    let version ← Der.natural
    let secret ← Der.contents Der.octetString
    let curve ← if ← Der.startsWith (Der.context 0) then Der.contents (Der.context 0)
      else pure curveId
    let point ← Der.nested (Der.context 1) Der.wholeBits
    let n := Der.ofBytes secret
    if version = 1 ∧ curve = curveId ∧ secret.length = 32 ∧ 0 < n ∧ n < CurveP256.order
        ∧ point = pointBytes n then
      return .ec point
    else failure

/-! ## Keys of RSA -/

/-- The parts of a key of RSA. -/
structure RsaParts where
  /-- The modulus, the product of two primes. -/
  n : Nat
  /-- The public exponent. -/
  e : Nat
  /-- The private exponent. -/
  d : Nat
  /-- The first prime. -/
  p : Nat
  /-- The second prime. -/
  q : Nat
  /-- The private exponent modulo `p - 1`. -/
  dP : Nat
  /-- The private exponent modulo `q - 1`. -/
  dQ : Nat
  /-- The inverse of the second prime modulo the first. -/
  qInv : Nat
deriving DecidableEq, Repr

/-- The number of bits of a number. -/
def bitLength (n : Nat) : Nat := if n = 0 then 0 else Nat.log2 n + 1

/-- Whether the parts fit each other, as far as that is checked: sizes, products and inverses. -/
def RsaParts.areConsistent (k : RsaParts) : Bool :=
  let half := (bitLength k.n + 1) / 2
  let fits (prime exponent : Nat) : Bool :=
    bitLength prime = half && half % 512 = 0 && prime % 2 = 1 && exponent < prime
      && exponent % 2 = 1
  2048 ≤ (bitLength k.n + 7) / 8 * 8 && bitLength k.n ≤ 4096 && k.n % 2 = 1
    && 65537 ≤ k.e && k.e < Nat.pow 2 33 && k.e % 2 = 1
    && k.p * k.q = k.n && fits k.p k.dP && fits k.q k.dQ
    && half < bitLength k.d && k.d < k.n && k.d % 2 = 1
    && k.qInv < k.p && k.qInv * k.q % k.p = 1

/-- Reads a key of RSA. -/
def rsaKey : DerReader PrivateKey :=
  Der.nested Der.sequence do
    let version ← Der.natural
    let n ← Der.natural
    let e ← Der.natural
    let d ← Der.natural
    let p ← Der.natural
    let q ← Der.natural
    let dP ← Der.natural
    let dQ ← Der.natural
    let qInv ← Der.natural
    if version = 0 ∧ RsaParts.areConsistent ⟨n, e, d, p, q, dP, dQ, qInv⟩ then return .rsa n e
    else failure

/-! ## Keys of either algorithm -/

/-- Reads a key that names its algorithm. Attributes after it are passed over. -/
def pkcs8Key : DerReader PrivateKey :=
  Der.nested Der.sequence do
    let version ← Der.natural
    let algorithm ← Der.contents Der.sequence
    let inner ← Der.contents Der.octetString
    if ← Der.startsWith (Der.context 0) then
      let _ ← Der.contents (Der.context 0)
    let reader := if algorithm = rsaAlgorithm then rsaKey
      else if algorithm = ecAlgorithm then ecKey else failure
    match Der.all reader inner with
    | some key => if version = 0 then return key else failure
    | none => failure

/-- The key in a section of a PEM file. -/
def ofSection? (s : PemSection) : Option PrivateKey :=
  match s.kind with
  | .pkcs8Key => Der.all pkcs8Key s.bytes
  | .rsaKey => Der.all rsaKey s.bytes
  | .ecKey => Der.all ecKey s.bytes
  | .certificate | .other => none

end PrivateKey

end SalesQuery
