import SalesQuery.Text.Base64

/-!
# PEM files

A PEM file holds sections between a line `-----BEGIN X-----` and a line `-----END X-----`, whose
label `X` says what the Base64 text between them stands for. Other lines are passed over, and so are
sections whose label is not known. A faulty section hides all that follows it.
-/

namespace SalesQuery

/-- What a section holds. -/
inductive PemKind where
  /-- A certificate. -/
  | certificate
  /-- A private key of any algorithm, which it names. -/
  | pkcs8Key
  /-- A private key of RSA. -/
  | rsaKey
  /-- A private key on an elliptic curve. -/
  | ecKey
  /-- Something known that is neither a certificate nor a private key. -/
  | other
deriving DecidableEq, Repr

/-- A section of a PEM file. -/
structure PemSection where
  /-- What the section holds. -/
  kind : PemKind
  /-- The contents. -/
  bytes : List UInt8
deriving DecidableEq, Repr

/-- Why a section cannot be read. -/
inductive PemFault where
  /-- A line starts like the first one of a section and does not end like one. -/
  | illegalStart
  /-- The file ends within a section. -/
  | missingEnd
  /-- The contents are not Base64. -/
  | notBase64
deriving DecidableEq, Repr

namespace Pem

/-- The known labels. -/
def labels : List (String × PemKind) :=
  [("CERTIFICATE", .certificate), ("PRIVATE KEY", .pkcs8Key), ("RSA PRIVATE KEY", .rsaKey),
    ("EC PRIVATE KEY", .ecKey), ("PUBLIC KEY", .other), ("X509 CRL", .other),
    ("CERTIFICATE REQUEST", .other), ("ECHCONFIG", .other)]

/-- How the first line of a section starts. -/
def beginMark : List Char := "-----BEGIN ".toList

/-- How the last line of a section starts. -/
def endMark : List Char := "-----END ".toList

/-- What follows a label. -/
def closingMark : List Char := "-----".toList

/-- The lines of a file; a line feed and a carriage return each end a line. -/
def lines : List Char → List (List Char)
  | [] => [[]]
  | c :: rest =>
    if c = '\n' ∨ c = '\r' then [] :: lines rest
    else
      match lines rest with
      | line :: others => (c :: line) :: others
      | [] => [[c]]

/-- The label on a line, from after its start on: the text before five closing hyphens, among and
after which blanks may stand. -/
def label? (l : List Char) : Option (List Char) :=
  let closing := (l.reverse.takeWhile fun c => c = '-' || c = ' ').reverse
  if closing.count '-' = 5 then
    some (l.take (l.length - closing.length) ++ closing.takeWhile (· = ' '))
  else none

/-- Whether a line ends the section of a label. -/
def isEnd (label line : List Char) : Bool :=
  (endMark ++ label ++ closingMark).isPrefixOf line

/-- The sections in some lines, up to the first that cannot be read. `current` is the label of the
section that is open, and `body` its lines so far, last one first. -/
def sections (current : Option (List Char)) (body : List (List Char)) :
    List (List Char) → List (Except PemFault PemSection)
  | [] => if current.isSome then [.error .missingEnd] else []
  | line :: rest =>
    if beginMark.isPrefixOf line then
      match label? (line.drop beginMark.length) with
      | some label => sections (some label) body rest
      | none => [.error .illegalStart]
    else
      match current with
      | none => sections none body rest
      | some label =>
        if isEnd label line then
          match labels.lookup (String.ofList label) with
          | none => sections none [] rest
          | some kind =>
            match Text.base64? body.reverse.flatten with
            | some bytes => .ok ⟨kind, bytes⟩ :: sections none [] rest
            | none => [.error .notBase64]
        else sections (some label) (line :: body) rest

/-- The sections of a file, up to the first that cannot be read. -/
def ofText (text : String) : List (Except PemFault PemSection) :=
  sections none [] (lines text.toList)

/-- The certificates of a file, all of whose sections have to be readable. -/
def certificates (text : String) : Except PemFault (List (List UInt8)) := do
  let sections ← (ofText text).mapM id
  return (sections.filter fun s => s.kind = .certificate).map PemSection.bytes

/-- The first section with a private key; what follows it is not looked at. -/
def firstKey : List (Except PemFault PemSection) → Except PemFault (Option PemSection)
  | [] => .ok none
  | .error fault :: _ => .error fault
  | .ok s :: rest =>
    match s.kind with
    | .pkcs8Key | .rsaKey | .ecKey => .ok (some s)
    | .certificate | .other => firstKey rest

/-- The first private key of a file. -/
def privateKey? (text : String) : Except PemFault (Option PemSection) := firstKey (ofText text)

end Pem

end SalesQuery
