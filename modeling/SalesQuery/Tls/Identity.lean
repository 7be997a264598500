import SalesQuery.Settings.Basic
import SalesQuery.Tls.Certificate
import SalesQuery.Tls.PrivateKey

/-!
# Securing the connection

The files that secure the connection to the database: certificates to trust and, if the service has
to identify itself, its certificates with the private key of the first. They are read in this order,
and the first fault is reported. Without certificates to trust the connection is not secured and no
file is read.
-/

namespace SalesQuery

/-- What a path leads to. -/
inductive FileEntry where
  /-- Nothing that can be opened. -/
  | missing
  /-- Something that can be opened and not be read. -/
  | unreadable
  /-- A file with a text. -/
  | text (contents : String)
deriving DecidableEq, Repr

/-- What paths lead to. -/
abbrev FileSystem := String → FileEntry

/-- The role of a file. -/
inductive TlsRole where
  /-- The certificates to trust. -/
  | rootCert
  /-- The certificates of the service. -/
  | clientCert
  /-- The private key of the service. -/
  | clientKey
deriving DecidableEq, Repr

/-- The name of the variable that gives the path of a file. -/
def TlsRole.variableName : TlsRole → String
  | .rootCert => "PGSSLROOTCERT"
  | .clientCert => "PGSSLCERT"
  | .clientKey => "PGSSLKEY"

/-- Why the connection cannot be secured. -/
inductive TlsFault where
  /-- A file cannot be opened. -/
  | unopened (role : TlsRole) (path : String)
  /-- A file cannot be read, or is not as it should be. -/
  | unparsed (role : TlsRole)
  /-- A file has no certificate. -/
  | noCertificates (role : TlsRole)
  /-- A certificate to trust is none. -/
  | badRoot
  /-- There are certificates of the service without a key, or a key without certificates. -/
  | halfIdentity
  /-- A file has no private key. -/
  | noKey
  /-- The key of the service is none, or does not belong to its first certificate. -/
  | badIdentity (rootPath : String)
deriving DecidableEq, Repr

/-- The fault in words. -/
def TlsFault.message : TlsFault → String
  | .unopened role path => "failed to open " ++ role.variableName ++ " file '" ++ path ++ "'"
  | .unparsed role => "failed to parse " ++ role.variableName
  | .noCertificates role => role.variableName ++ " contained no certificates"
  | .badRoot => "invalid certificate in PGSSLROOTCERT"
  | .halfIdentity => "PGSSLCERT and PGSSLKEY must both be set (or neither)"
  | .noKey => "PGSSLKEY contained no private keys"
  | .badIdentity rootPath => "failed to build client TLS config for " ++ rootPath

namespace TlsPaths

/-- The text of a file. -/
def readText (files : FileSystem) (role : TlsRole) (path : String) : Except TlsFault String :=
  match files path with
  | .missing => .error (.unopened role path)
  | .unreadable => .error (.unparsed role)
  | .text contents => .ok contents

/-- The certificates in a file, at least one. -/
def readCertificates (files : FileSystem) (role : TlsRole) (path : String) :
    Except TlsFault (List (List UInt8)) := do
  let text ← readText files role path
  match Pem.certificates text with
  | .error _ => throw (.unparsed role)
  | .ok [] => throw (.noCertificates role)
  | .ok certificates => return certificates

/-- The section of a file that holds its first private key. -/
def readKey (files : FileSystem) (path : String) : Except TlsFault PemSection := do
  let text ← readText files .clientKey path
  match Pem.privateKey? text with
  | .error _ => throw (.unparsed .clientKey)
  | .ok none => throw .noKey
  | .ok (some key) => return key

/-- Whether a key belongs to the first of some certificates. -/
def isIdentity (certificates : List (List UInt8)) (key : PemSection) : Bool :=
  match certificates.head?.bind Certificate.ofBytes?, PrivateKey.ofSection? key with
  | some certificate, some key => certificate.publicKey = key.publicKey
  | _, _ => false

/-- Checks the files that secure the connection. -/
def check (files : FileSystem) (paths : TlsPaths) : Except TlsFault Unit := do
  let some rootPath := paths.rootCert | return
  let roots ← readCertificates files .rootCert rootPath
  if !roots.all Certificate.isTrustAnchor then throw .badRoot
  match paths.clientCert, paths.clientKey with
  | none, none => return
  | some certPath, some keyPath =>
    let certificates ← readCertificates files .clientCert certPath
    let key ← readKey files keyPath
    if !isIdentity certificates key then throw (.badIdentity rootPath)
  | _, _ => throw .halfIdentity

end TlsPaths

end SalesQuery
