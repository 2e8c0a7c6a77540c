/-!
JSON values.  Numbers are kept as the reader of typed documents sees them: an integer that fits 64
bits, a negative one, or any other numeral, which no field of this library accepts.  An object keeps
its fields in order, repetitions included, so that a reader can refuse a field given twice.
-/

namespace CodeAtlas

inductive Json where
  | null
  | bool (value : Bool)
  /-- An integer from 0 to 2^64 - 1 that is written as an integer. -/
  | natural (value : Nat)
  /-- The integer `-value`, from -2^63 to -1, written as an integer. -/
  | negative (value : Nat)
  /-- Any other number, by its numeral. -/
  | numeral (digits : String)
  | text (value : String)
  | array (items : List Json)
  | object (fields : List (String × Json))
deriving Repr, Inhabited

namespace Json

/-- The last value under a key, if the value is an object that has the key. -/
def get? (key : String) : Json → Option Json
  | .object fields => (fields.reverse.find? (fun f => f.1 == key)).map (·.2)
  | _ => none

def items? : Json → Option (List Json)
  | .array items => some items
  | _ => none

def text? : Json → Option String
  | .text s => some s
  | _ => none

/-- An optional text; absence is `null`. -/
def ofText? : Option String → Json
  | some s => .text s
  | none => .null

/-- An optional value; absence is `null`. -/
def orNull : Option Json → Json
  | some v => v
  | none => .null

def ofTexts (texts : List String) : Json :=
  .array (texts.map .text)

/-- One optional field of an object: nothing when absent. -/
def optional (key : String) : Option Json → List (String × Json)
  | some v => [(key, v)]
  | none => []

end Json

end CodeAtlas
