import SalesQuery.Text.Ascii
import SalesQuery.Text.Utf8

/-!
# Percent-encoded text

A percent sign and two hexadecimal digits stand for a byte. A percent sign without two digits stands
for itself.
-/

namespace SalesQuery.Text

/-- The bytes that a percent-encoded text stands for. -/
def percentBytes : List Char → List UInt8
  | '%' :: a :: b :: rest =>
    match hexDigit? a, hexDigit? b with
    | some high, some low => UInt8.ofNat (high * 16 + low) :: percentBytes rest
    | _, _ => '%'.toNat.toUInt8 :: percentBytes (a :: b :: rest)
  | c :: rest => encodeUtf8 [c] ++ percentBytes rest
  | [] => []

/-- The text that a percent-encoded text stands for, with replacement characters where its bytes are
not UTF-8. -/
def percentDecodeLossy (l : List Char) : String := String.ofList (decodeLossy (percentBytes l))

/-- The text that a percent-encoded text stands for, if its bytes are UTF-8. -/
def percentDecode? (l : List Char) : Option String := decodeUtf8? (percentBytes l)

end SalesQuery.Text
