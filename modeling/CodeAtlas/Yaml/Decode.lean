import CodeAtlas.Yaml.Node

/-!
Typed reading of documents.  Every scalar is a text, whatever it looks like; words for truth values
and numbers have to be plain, or literal blocks with the tag of their type.
-/

namespace CodeAtlas.Yaml.Decode

/-- The scalar that a node is or refers to. -/
def scalar (d : Document) (n : Node) : Option Scalar :=
  match d.resolve n with
  | some (.scalar s) => some s
  | _ => none

def text (d : Document) (n : Node) : Option String :=
  (scalar d n).map (·.text)

def isNullWord (s : String) : Bool :=
  s == "null" || s == "Null" || s == "NULL" || s == "~"

/-- A text, or none for a plain scalar that is empty or a word for null.  The tag for null admits the
words only, and any other tag makes a text. -/
def textOrNull (d : Document) (n : Node) : Option (Option String) := do
  let s ← scalar d n
  if s.style != .plain then return some s.text
  match s.tag with
  | some "tag:yaml.org,2002:null" => if isNullWord s.text then return none else failure
  | some _ => return some s.text
  | none => return if s.text.isEmpty || isNullWord s.text then none else some s.text

/-- The word of a scalar that may be a value of a type with the given tag. -/
def word (d : Document) (tag : String) (n : Node) : Option String := do
  let s ← scalar d n
  if s.style == .plain || (s.style == .literal && s.tag == some tag) then return s.text else failure

def bool (d : Document) (n : Node) : Option Bool := do
  let w ← word d "tag:yaml.org,2002:bool" n
  if w == "true" || w == "True" || w == "TRUE" then return true
  else if w == "false" || w == "False" || w == "FALSE" then return false
  else failure

/-- The value of a digit below `base`. -/
def digit? (base : Nat) (c : Char) : Option Nat := do
  let n ← Json.hexValue? c
  if n < base then return n else failure

/-- The number that some digits denote; there has to be one. -/
def digits? (base : Nat) (cs : List Char) : Option Nat :=
  if cs.isEmpty then none
  else (cs.mapM (digit? base)).map (·.foldl (fun n d => n * base + d) 0)

/-- A natural number: decimal without needless zeros at the front, or with `0x`, `0o` or `0b` before
it; a plus sign may precede it. -/
def natural? (s : String) : Option Nat :=
  let cs := s.toList
  let body := if cs.head? == some '+' then cs.tail else cs
  match body with
  | '0' :: 'x' :: more => digits? 16 more
  | '0' :: 'o' :: more => digits? 8 more
  | '0' :: 'b' :: more => digits? 2 more
  | '0' :: _ :: _ => none
  | _ => digits? 10 body

def word64 (d : Document) (n : Node) : Option Nat := do
  let v ← natural? (← word d "tag:yaml.org,2002:int" n)
  if v < UInt64.size then return v else failure

/-- A plain scalar of which nothing is written. -/
def isBlank : Node → Bool
  | .scalar s => s.style == .plain && s.text.isEmpty
  | _ => false

def list {α : Type} (item : Node → Option α) (d : Document) (n : Node) : Option (List α) :=
  match d.resolve n with
  | some (.sequence items) => items.mapM item
  | some other => if isBlank other then some [] else none
  | none => none

/-- The entries of a mapping with the texts of their keys. -/
def keyed (d : Document) (entries : List (Node × Node)) : Option (List (String × Node)) :=
  entries.mapM fun e => (text d e.1).map (·, e.2)

/-- The values given for the fields of a record, each under its own name at most once, or in order as
a sequence; unknown names are passed over. -/
def given (fields : List String) (d : Document) (root : Option Node) : Option (List (Option Node)) :=
  match root.map d.resolve with
  | none => some (fields.map fun _ => none)
  | some (some (.mapping entries)) => do
    let known ← keyed d entries
    fields.mapM fun f =>
      match known.filter (fun e => e.1 == f) with
      | [] => some none
      | [e] => some (some e.2)
      | _ => none
  | some (some (.sequence items)) =>
    if items.length ≤ fields.length then
      some (items.map some ++ (fields.drop items.length).map fun _ => none)
    else none
  | some (some other) => if isBlank other then some (fields.map fun _ => none) else none
  | some none => none

end CodeAtlas.Yaml.Decode
