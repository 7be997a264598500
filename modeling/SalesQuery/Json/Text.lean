import SalesQuery.Json.Value
import SalesQuery.Json.Quoted
import SalesQuery.Binary64.Text

/-!
# The text of JSON values

The compact form: no blanks between tokens, members in the order in which the value lists them.
`Value.sorted` orders the members at every depth by name, so that the canonical text of a value does
not depend on the order of its members.
-/

namespace SalesQuery.Json

/-- The text of a number. An integer shows no point; a double without a text is written `null`. -/
def Number.text : Number → String
  | .int n => toString n
  | .float x => x.text?.getD "null"

namespace Value

mutual

/-- The compact text of a value. -/
def chars : Value → List Char
  | .null => "null".toList
  | .bool true => "true".toList
  | .bool false => "false".toList
  | .number n => n.text.toList
  | .string s => Quoted.write s
  | .array items => '[' :: (charsItems items ++ [']'])
  | .object members => '\x7b' :: (charsMembers members ++ ['\x7d'])

/-- The texts of a list of values, separated by commas. -/
def charsItems : List Value → List Char
  | [] => []
  | [v] => chars v
  | v :: rest => chars v ++ ',' :: charsItems rest

/-- The texts of named values, separated by commas. -/
def charsMembers : List (String × Value) → List Char
  | [] => []
  | [(name, v)] => Quoted.write name ++ ':' :: chars v
  | (name, v) :: rest => Quoted.write name ++ ':' :: (chars v ++ ',' :: charsMembers rest)

end

/-- The compact text of a value. -/
def text (v : Value) : String := String.ofList v.chars

mutual

/-- The value with the members of every object in the order of their names. -/
def sorted : Value → Value
  | .array items => .array (sortedItems items)
  | .object members => .object (sortedMembers members)
  | v => v

/-- Sorts within each value of a list. -/
def sortedItems : List Value → List Value
  | [] => []
  | v :: rest => sorted v :: sortedItems rest

/-- Orders named values by name, and sorts within each. The last value given for a name stays. -/
def sortedMembers : List (String × Value) → List (String × Value)
  | [] => []
  | (name, v) :: rest =>
    let others := sortedMembers rest
    if others.any fun m => m.1 = name then others else insertEntry name (sorted v) others

end

/-- The text that all values share which differ in the order of their members only. -/
def canonicalText (v : Value) : String := v.sorted.text

end Value

end SalesQuery.Json
