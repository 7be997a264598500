import SalesQuery.Text.Blank
import SalesQuery.Text.Integer
import SalesQuery.Text.LowerCase

/-!
# The environment

Variables with their values. The case of a name does not matter, so a variable that is set under two
spellings has no clear value and is a fault.
-/

namespace SalesQuery

/-- Variables with their values. -/
abbrev Environment := List (String × String)

/-- A variable that cannot be read: it is set twice, or its value does not fit. -/
structure UnreadableVariable where
  /-- The name of the variable, in lower case. -/
  name : String
deriving DecidableEq, Repr

namespace Environment

/-- The value of a variable whose name is given in lower case. -/
def text (env : Environment) (name : String) : Except UnreadableVariable (Option String) :=
  match env.filter fun entry => Text.lowerCase entry.1 = name with
  | [] => .ok none
  | [(_, value)] => .ok (some value)
  | _ => .error ⟨name⟩

/-- The value of a variable that is read in some way. -/
def read {α : Type} (parse : List Char → Option α) (env : Environment) (name : String) :
    Except UnreadableVariable (Option α) := do
  match ← env.text name with
  | none => return none
  | some value =>
    match parse value.toList with
    | some a => return some a
    | none => throw ⟨name⟩

/-- A number of so many bits, with a default. -/
def unsigned (bits : Nat) (env : Environment) (name : String) (default : Nat) :
    Except UnreadableVariable Nat :=
  (·.getD default) <$> env.read (Text.unsignedOf? bits) name

/-- An integer of 64 bits, with a default. -/
def int64 (env : Environment) (name : String) (default : Int) : Except UnreadableVariable Int :=
  (·.getD default) <$> env.read Text.int64? name

end Environment

end SalesQuery
