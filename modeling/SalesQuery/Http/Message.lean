import SalesQuery.Json.Value
import SalesQuery.Text.Ascii

/-!
# HTTP messages

A request names a method and a target and carries headers and a body. Of a response only what the
service itself decides is kept: status, the allowed methods, the headers for other origins and a
JSON body.
-/

namespace SalesQuery.Http

/-- A request. -/
structure Request where
  /-- The method. -/
  method : String
  /-- The path, with the query string if there is one; a scheme and a host may stand in front. -/
  target : String
  /-- The headers in order. -/
  headers : List (String × String) := []
  /-- The bytes of the body. -/
  body : List UInt8 := []
deriving DecidableEq, Repr

/-- A response. -/
structure Response where
  /-- The status. -/
  status : Nat
  /-- The methods that the path allows, if the method of the request is none of them. -/
  allow : Option String := none
  /-- The origin that may read the response. -/
  allowOrigin : Option String := none
  /-- The methods that other origins may use. -/
  allowMethods : Option String := none
  /-- The headers that other origins may send. -/
  allowHeaders : Option String := none
  /-- The JSON body, if there is one. -/
  body : Option Json.Value := none

namespace Request

/-- The value of the first header of a name, which may be given in any case. -/
def header? (r : Request) (name : String) : Option String :=
  (r.headers.find? fun h => Text.lowerAscii h.1 = name).map (·.2)

/-- The value of a header if it is readable as text: visible ASCII characters, blanks and tabs. -/
def textHeader? (r : Request) (name : String) : Option String :=
  (r.header? name).filter fun value =>
    value.toList.all fun c => c = '\t' || (32 ≤ c.toNat && c.toNat < 127)

/-- Whether a character may stand in the scheme of a target. -/
def isSchemeChar (c : Char) : Bool := c.isAlphanum || c = '+' || c = '-' || c = '.'

/-- A target without the scheme and the host that it may start with. -/
def originForm (target : List Char) : List Char :=
  match target.dropWhile isSchemeChar with
  | ':' :: '/' :: '/' :: rest =>
    match rest.dropWhile fun c => c ≠ '/' && c ≠ '?' && c ≠ '#' with
    | '/' :: path => '/' :: path
    | rest => '/' :: rest
  | _ => target

/-- The target up to a fragment. -/
def resource (r : Request) : List Char :=
  (originForm r.target.toList).takeWhile (· ≠ '#')

/-- The path. -/
def path (r : Request) : String := String.ofList (r.resource.takeWhile (· ≠ '?'))

/-- The query string, empty if there is none. -/
def query (r : Request) : String := String.ofList ((r.resource.dropWhile (· ≠ '?')).drop 1)

end Request

end SalesQuery.Http
