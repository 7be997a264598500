import SalesQuery.Text.Ascii
import SalesQuery.Text.Blank

/-!
# Custom aggregates

A metric may be written out as `FUNCTION(column) AS alias`, with an optional `DISTINCT` and a column
that a table alias may qualify. Letters match their case variants under Unicode simple folding, so
the long s counts as an s and the Kelvin sign as a k, in keywords and names alike; blanks are those
of Unicode.
-/

namespace SalesQuery.Aggregate

/-- The lower case ASCII letter that a character folds to, or the character itself. -/
def fold (c : Char) : Char :=
  if c = 'ſ' then 's' else if c = '\u212A' then 'k' else c.toLower

/-- Whether a name may start with the character. -/
def startsName (c : Char) : Bool :=
  let c := fold c
  c = '_' || ('a' ≤ c && c ≤ 'z')

/-- Whether a name may go on with the character. -/
def continuesName (c : Char) : Bool := startsName c || c.isDigit

/-- Reads a name. -/
def scanName : List Char → Option (List Char × List Char)
  | c :: rest =>
    if startsName c then
      some (c :: rest.takeWhile continuesName, rest.dropWhile continuesName)
    else none
  | [] => none

/-- Reads a word given in lower case, of any case. -/
def scanWord : List Char → List Char → Option (List Char)
  | [], l => some l
  | _ :: _, [] => none
  | w :: word, c :: l => if fold c = w then scanWord word l else none

/-- Reads at least one blank. -/
def scanBlanks : List Char → Option (List Char)
  | c :: rest => if Text.isBlank c then some (rest.dropWhile Text.isBlank) else none
  | [] => none

/-- Reads one character. -/
def scanChar (expected : Char) : List Char → Option (List Char)
  | c :: rest => if c = expected then some rest else none
  | [] => none

/-- The names of the aggregate functions, in lower case. -/
def functions : List String := ["sum", "avg", "count", "min", "max"]

/-- Reads the name of a function. -/
def scanFunction (l : List Char) : Option (List Char) :=
  functions.findSome? fun f => scanWord f.toList l

/-- Reads `DISTINCT` and the blanks after it, if both are there. -/
def skipDistinct (l : List Char) : List Char :=
  ((scanWord "distinct".toList l).bind scanBlanks).getD l

/-- Reads a column: the qualifier, if there is one, and the name. -/
def scanColumn (l : List Char) : Option ((Option (List Char) × List Char) × List Char) := do
  let (first, l) ← scanName l
  match l with
  | '.' :: rest => do
    let (second, rest) ← scanName rest
    return ((some first, second), rest)
  | _ => return ((none, first), l)

/-- The qualifier and the alias of a custom aggregate that makes up the whole text. -/
def parts? (l : List Char) : Option (Option String × String) := do
  let l ← scanFunction l
  let l ← scanChar '(' l
  let ((qualifier, _), l) ← scanColumn (skipDistinct l)
  let l ← scanChar ')' l
  let l ← scanBlanks l
  let l ← scanWord "as".toList l
  let l ← scanBlanks l
  let (aliasName, l) ← scanName l
  if l.isEmpty then return (qualifier.map String.ofList, String.ofList aliasName) else none

end SalesQuery.Aggregate
