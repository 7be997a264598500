import SalesQuery.Text.Utf8

/-!
# JSON in bytes

The bytes of a JSON text need not be UTF-8. Bytes that are not are found only where characters are
looked at: outside strings and after a backslash they stand for none, but a string that holds them
can be passed over like any other, and has no value if it is read. This is also what becomes of a
surrogate that stands alone, and so they are read as one.
-/

namespace SalesQuery.Json

/-- Two surrogates that stand alone, whatever comes after them. -/
def loneSurrogates : List Char := "\\uD800\\uD800".toList

/-- The characters of a byte string, with whether the one before is a backslash that escapes the
next. Bytes that are not UTF-8 are lone surrogates, but no escape after a backslash. -/
def charsOfBytes (escaped : Bool) : List UInt8 → List Char
  | [] => []
  | a :: rest =>
    let (c, more) := Text.leading a rest
    let after := rest.drop more
    if Text.encodeUtf8 [c] = a :: rest.take more then
      c :: charsOfBytes (c = '\\' && !escaped) after
    else if escaped then '\x00' :: charsOfBytes false after
    else loneSurrogates ++ charsOfBytes false after
termination_by bytes => bytes.length
decreasing_by all_goals simp only [List.length_cons, List.length_drop]; omega

end SalesQuery.Json
