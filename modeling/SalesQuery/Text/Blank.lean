/-!
# Blank characters

The characters that may surround and separate tokens are those with the Unicode property
`White_Space`. Trimming removes them from both ends of a text and nothing else.
-/

namespace SalesQuery.Text

/-- The code points with the property `White_Space`, as inclusive ranges. -/
def blankRanges : List (Nat × Nat) :=
  [(0x09, 0x0D), (0x20, 0x20), (0x85, 0x85), (0xA0, 0xA0), (0x1680, 0x1680), (0x2000, 0x200A),
    (0x2028, 0x2029), (0x202F, 0x202F), (0x205F, 0x205F), (0x3000, 0x3000)]

/-- Whether a character is white space. -/
def isBlank (c : Char) : Bool :=
  blankRanges.any fun range => range.1 ≤ c.toNat && c.toNat ≤ range.2

/-- The characters without the blanks at either end. -/
def trimChars (l : List Char) : List Char :=
  ((l.dropWhile isBlank).reverse.dropWhile isBlank).reverse

/-- The text without the blanks at either end. -/
def trim (s : String) : String :=
  String.ofList (trimChars s.toList)

/-- The pieces of a text between the occurrences of a character; there is always at least one. -/
def splitChars (separator : Char) : List Char → List (List Char)
  | [] => [[]]
  | c :: rest =>
    match splitChars separator rest with
    | [] => [[c]]
    | piece :: pieces => if c = separator then [] :: piece :: pieces else (c :: piece) :: pieces

/-- The entries of a comma separated list: blanks around an entry are dropped, and so are entries
that are empty without them. -/
def commaList (s : String) : List String :=
  (splitChars ',' s.toList).filterMap fun piece =>
    match trimChars piece with
    | [] => none
    | entry => some (String.ofList entry)

end SalesQuery.Text
