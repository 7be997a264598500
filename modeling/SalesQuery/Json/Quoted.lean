import SalesQuery.Text.Ascii

/-!
# Quoted text

A JSON string stands between quotation marks. When it is written, only the quotation mark, the
backslash and the control characters are escaped. When it is read, an escape of four hexadecimal
digits names a UTF-16 unit; a surrogate needs its partner in the escape beside it.
-/

namespace SalesQuery.Json.Quoted

/-! ## Writing -/

/-- The written form of a character inside quotation marks. -/
def escape (c : Char) : List Char :=
  if c = '"' then ['\\', '"']
  else if c = '\\' then ['\\', '\\']
  else if c = '\x08' then ['\\', 'b']
  else if c = '\x0c' then ['\\', 'f']
  else if c = '\n' then ['\\', 'n']
  else if c = '\r' then ['\\', 'r']
  else if c = '\t' then ['\\', 't']
  else if c.toNat < 0x20 then
    ['\\', 'u', '0', '0', Text.hexDigit (c.toNat / 16), Text.hexDigit (c.toNat % 16)]
  else [c]

/-- The text between quotation marks. -/
def write (s : String) : List Char :=
  '"' :: (s.toList.flatMap escape ++ ['"'])

/-! ## Reading -/

/-- A part of a quoted text. -/
inductive Piece where
  /-- A character, written as itself or by a short escape. -/
  | char (c : Char)
  /-- A UTF-16 unit, written by its number. -/
  | unit (code : Nat)
deriving DecidableEq, Repr

/-- The character of a short escape. -/
def shortEscape? (c : Char) : Option Char :=
  match c with
  | '"' => some '"'
  | '\\' => some '\\'
  | '/' => some '/'
  | 'b' => some '\x08'
  | 'f' => some '\x0c'
  | 'n' => some '\n'
  | 'r' => some '\r'
  | 't' => some '\t'
  | _ => none

/-- The number that four hexadecimal digits write. -/
def unit? (a b c d : Char) : Option Nat := do
  return (((← Text.hexDigit? a) * 16 + (← Text.hexDigit? b)) * 16 + (← Text.hexDigit? c)) * 16
    + (← Text.hexDigit? d)

/-- Reads up to the closing quotation mark, given the pieces so far in reverse. Fails at the end of
the input, at a bare control character and at an unknown escape. -/
def scan (pieces : List Piece) : List Char → Option (List Piece × List Char)
  | '"' :: rest => some (pieces.reverse, rest)
  | '\\' :: 'u' :: a :: b :: c :: d :: rest =>
    match unit? a b c d with
    | some code => scan (.unit code :: pieces) rest
    | none => none
  | '\\' :: c :: rest =>
    match shortEscape? c with
    | some c => scan (.char c :: pieces) rest
    | none => none
  | c :: rest => if c.toNat < 0x20 ∨ c = '\\' then none else scan (.char c :: pieces) rest
  | [] => none

/-- The characters of the pieces, or nothing if a surrogate stands alone. -/
def join : List Piece → Option (List Char)
  | [] => some []
  | .char c :: rest => (join rest).map (c :: ·)
  | .unit code :: rest =>
    if code < 0xD800 ∨ 0xDFFF < code then (join rest).map (Char.ofNat code :: ·)
    else
      match rest with
      | .unit low :: rest =>
        if code < 0xDC00 ∧ 0xDC00 ≤ low ∧ low ≤ 0xDFFF then
          (join rest).map (Char.ofNat (0x10000 + (code - 0xD800) * 0x400 + (low - 0xDC00)) :: ·)
        else none
      | _ => none

end SalesQuery.Json.Quoted
