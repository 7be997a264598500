import SalesQuery.Text.Ascii

/-!
# Media types

A media type is a type, a slash, a subtype and parameters, each after a semicolon. A body counts as
JSON if the type is `application` and the subtype is `json` up to its last plus sign or after it.
-/

namespace SalesQuery.Http

/-- Whether a character may stand in the names of a media type. -/
def isTokenChar (c : Char) : Bool :=
  c.isAlphanum || "!#$%&'*+-.^_`|~".toList.contains c

/-- Whether a character may stand between the quotation marks of a parameter. -/
def isQuotedChar (c : Char) : Bool := 31 < c.toNat && c.toNat ≠ 127

/-- What a reader of parameters expects next. -/
inductive ParameterPart where
  /-- A name, or a blank before it. -/
  | start
  /-- More of a name. -/
  | name
  /-- The first character of a value. -/
  | valueStart
  /-- More of a value. -/
  | value
  /-- The first character between quotation marks, which is no quotation mark's end. -/
  | quotedStart
  /-- More characters between quotation marks. -/
  | quoted
  /-- A semicolon after a quoted value. -/
  | afterQuoted
deriving DecidableEq, Repr

/-- The part expected after a character, or nothing if the character may not stand there. -/
def ParameterPart.next? (part : ParameterPart) (c : Char) : Option ParameterPart :=
  match part with
  | .start => if c = ' ' then some .start else if isTokenChar c then some .name else none
  | .name => if isTokenChar c then some .name else if c = '=' then some .valueStart else none
  | .valueStart =>
    if c = '"' then some .quotedStart else if isTokenChar c then some .value else none
  | .value => if isTokenChar c then some .value else if c = ';' then some .start else none
  | .quotedStart => if isQuotedChar c then some .quoted else none
  | .quoted =>
    if c = '"' then some .afterQuoted else if isQuotedChar c then some .quoted else none
  | .afterQuoted => if c = ';' then some .start else if c = ' ' then some .afterQuoted else none

/-- Whether the parameters may end here. -/
def ParameterPart.mayEnd : ParameterPart → Bool
  | .start | .valueStart | .value | .afterQuoted => true
  | .name | .quotedStart | .quoted => false

/-- Whether a text, from after a semicolon on, is a list of parameters. -/
def areParameters (part : ParameterPart) : List Char → Bool
  | [] => part.mayEnd
  | c :: rest =>
    match part.next? c with
    | some part => areParameters part rest
    | none => false

/-- The subtype up to its last plus sign and what follows the sign. A plus sign that stands first
counts as a part of the name. -/
def splitSubtype (l : List Char) : List Char × Option (List Char) :=
  let back := l.reverse
  let suffix := back.takeWhile (· ≠ '+')
  match back.drop suffix.length with
  | _ :: first => if first.isEmpty then (l, none) else (first.reverse, some suffix.reverse)
  | [] => (l, none)

/-- Whether a content type is one of JSON. -/
def isJsonType (contentType : String) : Bool :=
  let l := contentType.toList.map Char.toLower
  let type := l.takeWhile isTokenChar
  match l.dropWhile isTokenChar with
  | '/' :: rest =>
    let subtype := rest.takeWhile isTokenChar
    let parameters := match rest.dropWhile isTokenChar with
      | [] => true
      | ';' :: rest => !subtype.isEmpty && areParameters .start rest
      | _ => false
    let (name, suffix) := splitSubtype subtype
    type = "application".toList && parameters
      && (name = "json".toList || suffix = some "json".toList)
  | _ => false

end SalesQuery.Http
