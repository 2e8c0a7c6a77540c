import CodeAtlas.Json.Value

/-!
Typed reading of JSON values.  A record is given as an object, where unknown keys are passed over
and a known key may occur once, or as an array of its fields in order.  A field may be left out of
an object when it has a default or is optional, and off the end of an array when it has a default.
-/

namespace CodeAtlas.Json

abbrev Decoder (α : Type) := Json → Option α

namespace Decode

def bool : Decoder Bool
  | .bool b => some b
  | _ => none

def text : Decoder String
  | .text s => some s
  | _ => none

/-- A natural number below `bound`. -/
def naturalBelow (bound : Nat) : Decoder Nat
  | .natural n => if n < bound then some n else none
  | _ => none

def word64 : Decoder Nat := naturalBelow UInt64.size

def word32 (v : Json) : Option UInt32 :=
  (naturalBelow UInt32.size v).map Nat.toUInt32

/-- `null` or a value. -/
def nullable {α : Type} (d : Decoder α) : Decoder (Option α)
  | .null => some none
  | v => (d v).map some

def list {α : Type} (d : Decoder α) : Decoder (List α)
  | .array items => items.mapM d
  | _ => none

/-- A choice by name; a name may also be the one key of an object whose value is `null`. -/
def choice {α : Type} (ofName? : String → Option α) : Decoder α
  | .text s => ofName? s
  | .object [(s, .null)] => ofName? s
  | _ => none

/-- What stands for a field that is not given. -/
inductive Absent where
  /-- The field must be given. -/
  | refused
  /-- The field may be left out of an object, as if it were `null`. -/
  | asNull
  /-- The field has a default. -/
  | default
deriving DecidableEq, Repr

/-- The record type's fields in order, each with what its absence means. -/
abbrev Shape := List (String × Absent)

/-- The values of an object under one key. -/
def occurrences (key : String) (fields : List (String × Json)) : List Json :=
  (fields.filter (fun f => f.1 == key)).map (·.2)

/-- The given values of an object's known fields: `none` inside for an absent one. -/
def fromObject : Shape → List (String × Json) → Option (List (Option Json))
  | [], _ => some []
  | (key, absent) :: shape, fields =>
    match occurrences key fields with
    | [] => if absent = .refused then none else (fromObject shape fields).map (none :: ·)
    | [v] => (fromObject shape fields).map (some v :: ·)
    | _ => none

/-- The given values of a record that is written as an array. -/
def fromArray : Shape → List Json → Option (List (Option Json))
  | [], [] => some []
  | [], _ :: _ => none
  | (_, absent) :: shape, [] => if absent = .default then (fromArray shape []).map (none :: ·) else none
  | _ :: shape, v :: vs => (fromArray shape vs).map (some v :: ·)

/-- The given values of a record in the order of its shape. -/
def given (shape : Shape) : Decoder (List (Option Json))
  | .object fields => fromObject shape fields
  | .array items => fromArray shape items
  | _ => none

/-- A field's value, or its default when it is not given. -/
def orElse {α : Type} (d : Decoder α) (fallback : α) : Option Json → Option α
  | some v => d v
  | none => some fallback

/-- A field that must be given. -/
def required {α : Type} (d : Decoder α) : Option Json → Option α
  | some v => d v
  | none => none

/-- A field that may be `null` or not given. -/
def perhaps {α : Type} (d : Decoder α) : Option Json → Option (Option α)
  | some v => nullable d v
  | none => some none

end Decode

end CodeAtlas.Json
