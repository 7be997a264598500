import SalesQuery.Json.Numeral
import SalesQuery.Json.Quoted

/-!
# JSON documents

A `Document` is a JSON text taken apart but not yet judged: members keep their order and may repeat
a name, a number may be out of range and a string may hold half a surrogate pair. Where the text
stops being JSON, the document ends with a mark. This is what a reader needs that reports the first
fault it meets and passes over the members it does not know.
-/

namespace SalesQuery.Json

/-- A JSON text taken apart, up to the first place where it is not JSON. -/
inductive Document where
  /-- The text is not JSON from here on. -/
  | broken
  /-- The word `null`. -/
  | null
  /-- One of the words `true` and `false`. -/
  | bool (b : Bool)
  /-- A number, absent if it is out of range. -/
  | number (n : Option Number)
  /-- A string, absent if a surrogate in it stands alone. -/
  | string (s : Option String)
  /-- A list, with whether its closing bracket was reached. -/
  | array (items : List Document) (complete : Bool)
  /-- Named values in the order of the text, with whether the closing bracket was reached. -/
  | object (members : List (Option String × Document)) (complete : Bool)
deriving Inhabited

namespace Document

/-- The blanks between the tokens of JSON. -/
def isSpace (c : Char) : Bool := c = ' ' || c = '\t' || c = '\n' || c = '\r'

/-- The text after its leading blanks. -/
def skipSpace (l : List Char) : List Char := l.dropWhile isSpace

/-- The rest of the text after a given beginning. -/
def after? : List Char → List Char → Option (List Char)
  | [], l => some l
  | _ :: _, [] => none
  | w :: word, c :: l => if w = c then after? word l else none

/-- What one step of reading finds, and the text that follows unless it is broken off. -/
structure Step (α : Type) where
  /-- What was read. -/
  found : α
  /-- The text that follows, absent where it is not JSON. -/
  rest : Option (List Char)

/-- A step at which the text is not JSON. -/
def Step.broken : Step Document := ⟨.broken, none⟩

/-- A step for a word of the language. -/
def word (text : String) (meaning : Document) (l : List Char) : Step Document :=
  match after? text.toList l with
  | some rest => ⟨meaning, some rest⟩
  | none => .broken

mutual

/-- Reads one value. -/
def value : Nat → List Char → Step Document
  | 0, _ => .broken
  | fuel + 1, l =>
    match skipSpace l with
    | 'n' :: rest => word "ull" .null rest
    | 't' :: rest => word "rue" (.bool true) rest
    | 'f' :: rest => word "alse" (.bool false) rest
    | '"' :: rest =>
      match Quoted.scan [] rest with
      | some (pieces, rest) => ⟨.string ((Quoted.join pieces).map String.ofList), some rest⟩
      | none => .broken
    | '[' :: rest =>
      match skipSpace rest with
      | ']' :: rest => ⟨.array [] true, some rest⟩
      | rest =>
        let step := items fuel rest
        ⟨.array step.found step.rest.isSome, step.rest⟩
    | '\x7b' :: rest =>
      match skipSpace rest with
      | '\x7d' :: rest => ⟨.object [] true, some rest⟩
      | rest =>
        let step := members fuel rest
        ⟨.object step.found step.rest.isSome, step.rest⟩
    | l =>
      match Numeral.scan l with
      | some (numeral, rest) => ⟨.number numeral.number?, some rest⟩
      | none => .broken

/-- Reads the items of a list up to its closing bracket. -/
def items : Nat → List Char → Step (List Document)
  | 0, _ => ⟨[], none⟩
  | fuel + 1, l =>
    let first := value fuel l
    match first.rest with
    | none => ⟨[first.found], none⟩
    | some rest =>
      match skipSpace rest with
      | ']' :: rest => ⟨[first.found], some rest⟩
      | ',' :: rest =>
        match skipSpace rest with
        | ']' :: _ => ⟨[first.found], none⟩
        | rest =>
          let others := items fuel rest
          ⟨first.found :: others.found, others.rest⟩
      | _ => ⟨[first.found], none⟩

/-- Reads the members of an object up to its closing bracket. -/
def members : Nat → List Char → Step (List (Option String × Document))
  | 0, _ => ⟨[], none⟩
  | fuel + 1, l =>
    match skipSpace l with
    | '"' :: rest =>
      match Quoted.scan [] rest with
      | none => ⟨[], none⟩
      | some (pieces, rest) =>
        let name := (Quoted.join pieces).map String.ofList
        match skipSpace rest with
        | ':' :: rest =>
          let first := value fuel rest
          match first.rest with
          | none => ⟨[(name, first.found)], none⟩
          | some rest =>
            match skipSpace rest with
            | '\x7d' :: rest => ⟨[(name, first.found)], some rest⟩
            | ',' :: rest =>
              let others := members fuel rest
              ⟨(name, first.found) :: others.found, others.rest⟩
            | _ => ⟨[(name, first.found)], none⟩
        | _ => ⟨[(name, .broken)], none⟩
    | _ => ⟨[], none⟩

end

/-- Takes apart the value that a text starts with. Every step but one in two uses up a character, so
twice the length of the text is steps enough. -/
def ofChars (l : List Char) : Step Document := value (2 * l.length + 2) l

mutual

/-- Whether the document is JSON to its end. -/
def intact : Document → Bool
  | .broken => false
  | .array items complete => intactItems items && complete
  | .object members complete => intactMembers members && complete
  | _ => true

/-- Whether every item is JSON to its end. -/
def intactItems : List Document → Bool
  | [] => true
  | d :: rest => intact d && intactItems rest

/-- Whether the value of every member is JSON to its end. -/
def intactMembers : List (Option String × Document) → Bool
  | [] => true
  | (_, d) :: rest => intact d && intactMembers rest

end

mutual

/-- A value as a document. -/
def ofValue : Value → Document
  | .null => .null
  | .bool b => .bool b
  | .number n => .number (some n)
  | .string s => .string (some s)
  | .array items => .array (ofItems items) true
  | .object members => .object (ofMembers members) true

/-- The documents of a list of values. -/
def ofItems : List Value → List Document
  | [] => []
  | v :: rest => ofValue v :: ofItems rest

/-- The documents of named values. -/
def ofMembers : List (String × Value) → List (Option String × Document)
  | [] => []
  | (name, v) :: rest => (some name, ofValue v) :: ofMembers rest

end

end Document

end SalesQuery.Json
