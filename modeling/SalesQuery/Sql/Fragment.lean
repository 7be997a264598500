import SalesQuery.Sql.Scalar

/-!
# Statements with parameters

A statement is written as a list of fragments: SQL text and bound scalars, in the order of the text.
Only `CompiledQuery.ofFragments` makes a placeholder: the scalars are numbered `$1`, `$2`, … as they
stand, so the placeholders always line up with the parameters.
-/

namespace SalesQuery

/-- A piece of a statement. -/
inductive Fragment where
  /-- SQL text. -/
  | sql (text : String)
  /-- A scalar bound at this place. -/
  | bind (value : Scalar)
deriving DecidableEq

namespace Fragment

/-- The scalar, if the fragment binds one. -/
def value? : Fragment → Option Scalar
  | .sql _ => none
  | .bind value => some value

/-- Fragments with a text between each two groups. -/
def separated (separator : String) : List (List Fragment) → List Fragment
  | [] => []
  | [group] => group
  | group :: rest => group ++ .sql separator :: separated separator rest

/-- The text of the fragments, with placeholders numbered on from `bound`. -/
def render (bound : Nat) : List Fragment → List String
  | [] => []
  | .sql text :: rest => text :: render bound rest
  | .bind _ :: rest => "$" :: toString (bound + 1) :: render (bound + 1) rest

end Fragment

/-- SQL text with its parameters. -/
structure CompiledQuery where
  /-- The text, with placeholders `$1`, `$2`, … -/
  sql : String
  /-- The parameters in the order of their placeholders. -/
  params : List Scalar
deriving DecidableEq

namespace CompiledQuery

/-- Numbers the bound scalars from left to right. -/
def ofFragments (fragments : List Fragment) : CompiledQuery where
  sql := String.join (Fragment.render 0 fragments)
  params := fragments.filterMap Fragment.value?

end CompiledQuery

/-- The statement that returns each row of another as one JSON object. -/
def wrapAsJson (sql : String) : String :=
  "SELECT to_jsonb(q) AS payload FROM (\n" ++ sql ++ "\n) AS q"

end SalesQuery
