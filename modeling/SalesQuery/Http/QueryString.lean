import SalesQuery.Json.Decode
import SalesQuery.Text.Blank
import SalesQuery.Text.Integer
import SalesQuery.Text.Percent

/-!
# Query strings

A query string lists names and values: pairs are separated by `&`, a name ends at its first `=`, a
plus sign stands for a blank, and the rest is percent-encoded. Parameters are read like the members
of an object whose values are texts, so a name that is known may occur once and others are passed
over.
-/

namespace SalesQuery.Http

open Json (Decoder Document)

/-- The text that an encoded name or value stands for. -/
def decodeComponent (l : List Char) : String :=
  Text.percentDecodeLossy (l.map fun c => if c = '+' then ' ' else c)

/-- The names and values of a query string. -/
def queryPairs (query : String) : List (String × String) :=
  (Text.splitChars '&' query.toList).filterMap fun pair =>
    if pair.isEmpty then none
    else
      some (decodeComponent (pair.takeWhile (· ≠ '=')),
        decodeComponent ((pair.dropWhile (· ≠ '=')).drop 1))

/-- Reads the parameters of a query string, or nothing if they do not fit. -/
def readQuery? {σ : Type} (fields : List (Decoder.Field σ)) (initial : σ) (query : String) :
    Option σ :=
  let members := (queryPairs query).map fun (name, value) =>
    (some name, Document.string (some value))
  (Decoder.record fields initial none (.object members true)).toOption

/-- Reads an integer from a text. -/
def int64Text : Decoder Int := fun levels d => do
  match Text.int64? (← Decoder.string levels d).toList with
  | some n => return n
  | none => throw .misfit

/-- The parameter `limit`. -/
def limitFields : List (Decoder.Field (Option Int)) :=
  [⟨"limit", false, fun levels d => do
      let limit ← Decoder.optional int64Text levels d
      return fun _ => limit⟩]

/-- The parameter `pattern`. -/
def patternFields : List (Decoder.Field (Option String)) :=
  [⟨"pattern", false, fun levels d => do
      let pattern ← Decoder.optional Decoder.string levels d
      return fun _ => pattern⟩]

end SalesQuery.Http
