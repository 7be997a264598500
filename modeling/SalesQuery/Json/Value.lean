import SalesQuery.Dictionary
import SalesQuery.Binary64.Arithmetic
import SalesQuery.Text.Integer

/-!
# JSON values

A number is an integer when it is written as one and fits 64 bits, signed or unsigned; any other
number is a double. The members of an object are listed as they come; `Value.ofMembers` puts them
in the order of their names, each name once.
-/

namespace SalesQuery.Json

/-- A JSON number. -/
inductive Number where
  /-- An integer from `-2^63` to `2^64 - 1`. -/
  | int (n : Int)
  /-- Any other number. -/
  | float (x : Binary64)
deriving DecidableEq, Repr, Inhabited

/-- A JSON value. -/
inductive Value where
  /-- The value `null`. -/
  | null
  /-- A truth value. -/
  | bool (b : Bool)
  /-- A number. -/
  | number (n : Number)
  /-- A text. -/
  | string (s : String)
  /-- A list of values. -/
  | array (items : List Value)
  /-- Named values. -/
  | object (members : List (String × Value))
deriving Inhabited

namespace Number

/-- The integer, if it fits 64 bits with a sign. -/
def int64? : Number → Option Int
  | .int n => if Text.fitsInt64 n then some n else none
  | .float _ => none

/-- The nearest double. -/
def toBinary64 : Number → Binary64
  | .int n => .ofInt n
  | .float x => x

end Number

namespace Value

/-- The value of an integer. -/
def int (n : Int) : Value := .number (.int n)

/-- The value of a double; one without a text is `null`. -/
def float (x : Binary64) : Value := if x.isFinite then .number (.float x) else .null

/-- The value of a natural number. -/
def nat (n : Nat) : Value := int n

/-- The value of something that may be absent, `null` if it is. -/
def ofOption {α : Type} (encode : α → Value) : Option α → Value
  | none => .null
  | some a => encode a

/-- The object with the given members, ordered by name; the last value given for a name stays. -/
def ofMembers (members : List (String × Value)) : Value :=
  .object (Dictionary.ofList members).entries

/-- The value of a list of texts. -/
def strings (l : List String) : Value := .array (l.map .string)

/-- The member of an object with the given name. -/
def member? (v : Value) (name : String) : Option Value :=
  match v with
  | .object members => (members.find? fun m => m.1 = name).map (·.2)
  | _ => none

/-- The text, if the value is one. -/
def string? : Value → Option String
  | .string s => some s
  | _ => none

/-- The number, if the value is one. -/
def number? : Value → Option Number
  | .number n => some n
  | _ => none

/-- The integer, if the value is one that fits 64 bits with a sign. -/
def int64? (v : Value) : Option Int := v.number?.bind Number.int64?

/-- The nearest double, if the value is a number. -/
def binary64? (v : Value) : Option Binary64 := v.number?.map Number.toBinary64

end Value

end SalesQuery.Json
