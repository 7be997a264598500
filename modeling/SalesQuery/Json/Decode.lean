import SalesQuery.Json.Document

/-!
# Reading JSON as a type

A `Decoder` reads a document as a value of some type and reports the first fault it meets on the way
from left to right: text that is not JSON (`Flaw.illFormed`), or JSON that does not fit the type
(`Flaw.misfit`). Lists and objects may nest to a limited depth when a text is read; a value that has
been read before carries no such limit. Members that a record does not know are passed over, and
their contents are held to the grammar of JSON only.
-/

namespace SalesQuery.Json

/-- Why a document was not read. -/
inductive Flaw where
  /-- The text is not JSON, nests too deeply, or holds a number or string without a value. -/
  | illFormed
  /-- The value does not fit the type it is read as. -/
  | misfit
deriving DecidableEq, Repr

/-- Reads a document at a place where so many further levels may be entered; without a number there
is no limit. -/
abbrev Decoder (α : Type) := Option Nat → Document → Except Flaw α

namespace Decoder

/-- The levels of lists and objects that a text may nest. -/
def maxLevels : Nat := 127

/-- Enters a list or an object. -/
def enter : Option Nat → Except Flaw (Option Nat)
  | none => .ok none
  | some 0 => .error .illFormed
  | some (levels + 1) => .ok (some levels)

/-- The fault of a document where something else was expected: a simple value is read before it is
found not to fit. -/
def unfit : Document → Flaw
  | .broken => .illFormed
  | .number none => .illFormed
  | .string none => .illFormed
  | _ => .misfit

/-- Reads `null` as absence and anything else as the type. -/
def optional {α : Type} (decode : Decoder α) : Decoder (Option α) := fun levels d =>
  match d with
  | .null => .ok none
  | d => some <$> decode levels d

/-- Reads a text. -/
def string : Decoder String := fun _ d =>
  match d with
  | .string (some s) => .ok s
  | d => .error (unfit d)

/-- Reads an integer of 64 bits with a sign. A number with a fraction or an exponent is none. -/
def int64 : Decoder Int := fun _ d =>
  match d with
  | .number (some n) =>
    match n.int64? with
    | some n => .ok n
    | none => .error .misfit
  | d => .error (unfit d)

/-- Reads any number as a double. -/
def binary64 : Decoder Binary64 := fun _ d =>
  match d with
  | .number (some n) => .ok n.toBinary64
  | d => .error (unfit d)

/-- Reads a list, item by item. -/
def list {α : Type} (decode : Decoder α) : Decoder (List α) := fun levels d =>
  match d with
  | .array items complete => do
    let levels ← enter levels
    let decoded ← items.mapM (decode levels)
    if complete then return decoded else throw .illFormed
  | d => .error (unfit d)

/-- Reads an object as a map; the last value given for a name stays. -/
def dictionary {α : Type} (decode : Decoder α) : Decoder (Dictionary α) := fun levels d =>
  match d with
  | .object members complete => do
    let levels ← enter levels
    let decoded ← members.mapM fun (name, d) =>
      match name with
      | some name => return (name, ← decode levels d)
      | none => throw .illFormed
    if complete then return Dictionary.ofList decoded else throw .illFormed
  | d => .error (unfit d)

mutual

/-- Reads any value. Objects are ordered by name, and the last value given for a name stays. -/
def value (levels : Option Nat) : Document → Except Flaw Value
  | .null => .ok .null
  | .bool b => .ok (.bool b)
  | .number (some n) => .ok (.number n)
  | .string (some s) => .ok (.string s)
  | .array items complete => do
    let levels ← enter levels
    let decoded ← values levels items
    if complete then return .array decoded else throw .illFormed
  | .object members complete => do
    let levels ← enter levels
    let decoded ← namedValues levels members
    if complete then return .ofMembers decoded else throw .illFormed
  | _ => .error .illFormed

/-- Reads a list of any values. -/
def values (levels : Option Nat) : List Document → Except Flaw (List Value)
  | [] => .ok []
  | d :: rest => return (← value levels d) :: (← values levels rest)

/-- Reads named values. -/
def namedValues (levels : Option Nat) :
    List (Option String × Document) → Except Flaw (List (String × Value))
  | [] => .ok []
  | (none, _) :: _ => .error .illFormed
  | (some name, d) :: rest => return (name, ← value levels d) :: (← namedValues levels rest)

end

/-! ## Records -/

/-- A named part of a record under construction. -/
structure Field (σ : Type) where
  /-- The member's name. -/
  name : String
  /-- Whether the member must be present. -/
  required : Bool
  /-- Reads the member and says how it changes the record. -/
  read : Decoder (σ → σ)

/-- Reads the members of an object into a record. A known member may occur once. -/
def members {σ : Type} (fields : List (Field σ)) (levels : Option Nat) (complete : Bool)
    (seen : List String) (record : σ) : List (Option String × Document) → Except Flaw σ
  | [] =>
    if !complete then .error .illFormed
    else if fields.all fun f => !f.required || seen.contains f.name then .ok record
    else .error .misfit
  | (none, _) :: _ => .error .illFormed
  | (some name, d) :: rest =>
    match fields.find? fun f => f.name = name with
    | none =>
      if d.intact then members fields levels complete seen record rest else .error .illFormed
    | some f => do
      if seen.contains name then throw .misfit
      let change ← f.read levels d
      members fields levels complete (name :: seen) (change record) rest

/-- Reads the items of a list into the parts of a record, in the order of the parts. -/
def positions {σ : Type} (levels : Option Nat) (complete : Bool) (record : σ) :
    List (Field σ) → List Document → Except Flaw σ
  | [], [] => if complete then .ok record else .error .illFormed
  | [], _ :: _ => .error .illFormed
  | f :: fields, [] =>
    if !complete then .error .illFormed
    else if f.required then .error .misfit
    else positions levels complete record fields []
  | f :: fields, d :: rest => do
    let change ← f.read levels d
    positions levels complete (change record) fields rest

/-- Reads a record from an object, or from a list of its parts in their order. -/
def record {σ : Type} (fields : List (Field σ)) (initial : σ) : Decoder σ := fun levels d =>
  match d with
  | .object l complete => do
    let levels ← enter levels
    members fields levels complete [] initial l
  | .array items complete => do
    let levels ← enter levels
    positions levels complete initial fields items
  | d => .error (unfit d)

/-! ## Named variants -/

/-- Reads one of some names, as a text or as an object with that name and the value `null`. -/
def variant {α : Type} (variants : List (String × α)) : Decoder α := fun levels d =>
  match d with
  | .string (some name) =>
    match variants.lookup name with
    | some a => .ok a
    | none => .error .misfit
  | .object ((some name, d) :: rest) complete => do
    let _ ← enter levels
    let some a := variants.lookup name | throw .misfit
    match d with
    | .null => if rest.isEmpty && complete then return a else throw .illFormed
    | d => throw (unfit d)
  | _ => .error .illFormed

/-! ## Sources -/

/-- Reads a whole text; only blanks may follow the value. -/
def ofText {α : Type} (decode : Decoder α) (text : List Char) : Except Flaw α := do
  let step := Document.ofChars text
  let a ← decode (some maxLevels) step.found
  match step.rest with
  | some rest => if (Document.skipSpace rest).isEmpty then return a else throw .illFormed
  | none => throw .illFormed

/-- Reads the value that a text starts with; anything may follow it. -/
def ofBeginning {α : Type} (decode : Decoder α) (text : List Char) : Except Flaw α :=
  decode (some maxLevels) (Document.ofChars text).found

/-- Reads a value that is at hand. It is JSON, so it can only fail to fit. -/
def ofValue {α : Type} (decode : Decoder α) (v : Value) : Except Flaw α :=
  (decode none (Document.ofValue v)).mapError fun _ => .misfit

end Decoder

end SalesQuery.Json
