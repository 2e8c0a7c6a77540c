import CodeAtlas.Yaml.Token

/-!
Documents as trees.  A node that is named by an anchor gets a slot, and an alias refers to a slot; the
number of a slot is the number of names known when it is given out.  A text holds at most one
document.
-/

namespace CodeAtlas.Yaml

/-- A scalar with its tag, if one is given. -/
structure Scalar where
  text : String
  style : Style
  tag : Option String
deriving DecidableEq, Repr, Inhabited

inductive Node where
  | scalar (s : Scalar)
  | alias (slot : Nat)
  | sequence (items : List Node)
  | mapping (entries : List (Node × Node))
deriving Repr, Inhabited

namespace Node

def blank : Node := .scalar ⟨"", .plain, none⟩

end Node

/-- What is left to read, the slots of the anchors' names, and the nodes in the slots. -/
structure Reading where
  tokens : List Token
  names : List (String × Nat)
  slots : List (Nat × Node)

abbrev Read (α : Type) := StateT Reading Option α

namespace Read

def peek? : Read (Option Token) := do return (← get).tokens.head?

def skip : Read Unit := modify fun r => { r with tokens := r.tokens.tail }

def refuse {α : Type} : Read α := fun _ => none

/-- Passes over a token that has to come next. -/
def expect (t : Token) : Read Unit := do
  if (← peek?) == some t then skip else refuse

def sees (ts : List Token) : Read Bool := do
  return (← peek?).any ts.contains

/-! ## Properties -/

/-- The slot for a new node of a given name. -/
def name (anchor : String) : Read Nat := do
  let r ← get
  let slot := r.names.length
  set { r with names := (anchor, slot) :: r.names.filter (fun n => n.1 != anchor) }
  return slot

def fill (slot : Nat) (n : Node) : Read Unit :=
  modify fun r => { r with slots := (slot, n) :: r.slots }

/-- The slot of a name, which must be known. -/
def slot (anchor : String) : Read Nat := do
  match ((← get).names.find? (fun n => n.1 == anchor)) with
  | some n => return n.2
  | none => refuse

def anchor? : Read (Option String) := do
  match (← peek?) with
  | some (.anchor a) => skip; return some a
  | _ => return none

/-- A tag in full: what its handle stands for, and the rest. -/
def tag? (handles : List (String × String)) : Read (Option String) := do
  match (← peek?) with
  | some (.tag handle rest) =>
    skip
    if handle.isEmpty then return some rest
    match handles.find? (fun h => h.1 == handle) with
    | some h => return some (h.2 ++ rest)
    | none => refuse
  | _ => return none

/-- An anchor and a tag, in either order. -/
def properties (handles : List (String × String)) : Read (Option String × Option String) := do
  let anchor ← anchor?
  let tag ← tag? handles
  match anchor with
  | some a => return (some a, tag)
  | none => return (← anchor?, tag)

/-- Nothing after the properties, of which there has to be one. -/
def empty (marked : Bool) (tag : Option String) : Read Node :=
  if marked then return .scalar ⟨"", .plain, if tag == some "!" then none else tag⟩ else refuse

/-! ## Nodes

The fuel of these readers is a bound on the tokens: every round uses up at least one. -/

mutual

/-- A node; `block` allows blocks, and `dashes` a sequence that is not indented. -/
def node (handles : List (String × String)) : Nat → Bool → Bool → Read Node
  | 0, _, _ => refuse
  | fuel + 1, block, dashes => do
    match (← peek?) with
    | some (.alias a) => do
      skip
      return .alias (← slot a)
    | _ =>
      let (anchor, tag) ← properties handles
      let here ← match anchor with
        | some a => do pure (some (← name a))
        | none => pure none
      let n ← content handles fuel block dashes (anchor.isSome || tag.isSome) tag
      match here with
      | some i => fill i n
      | none => pure ()
      return n

/-- The node after its properties. -/
def content (handles : List (String × String)) :
    Nat → Bool → Bool → Bool → Option String → Read Node
  | 0, _, _, _, _ => refuse
  | fuel + 1, block, dashes, marked, tag => do
    match (← peek?) with
    | some (.scalar text style) =>
      skip
      return .scalar ⟨text, style, if tag == some "!" then none else tag⟩
    | some .flowSequence => skip; return .sequence (← flowItems handles fuel true)
    | some .flowMapping => skip; return .mapping (← flowEntries handles fuel true)
    | some .blockEntry =>
      if dashes then return .sequence (← dashItems handles fuel) else empty marked tag
    | some .blockSequence =>
      if block then skip; return .sequence (← blockItems handles fuel) else empty marked tag
    | some .blockMapping =>
      if block then skip; return .mapping (← blockEntries handles fuel) else empty marked tag
    | _ => empty marked tag

/-- A node, or a blank one before one of the given tokens. -/
def nodeUnless (handles : List (String × String)) :
    Nat → Bool → Bool → List Token → Read Node
  | 0, _, _, _ => refuse
  | fuel + 1, block, dashes, ends => do
    if (← sees ends) then return .blank else node handles fuel block dashes

def blockItems (handles : List (String × String)) : Nat → Read (List Node)
  | 0 => refuse
  | fuel + 1 => do
    match (← peek?) with
    | some .blockEntry =>
      skip
      let n ← nodeUnless handles fuel true false [.blockEntry, .blockEnd]
      return n :: (← blockItems handles fuel)
    | some .blockEnd => skip; return []
    | _ => refuse

/-- The entries of a sequence that is not indented. -/
def dashItems (handles : List (String × String)) : Nat → Read (List Node)
  | 0 => refuse
  | fuel + 1 => do
    match (← peek?) with
    | some .blockEntry =>
      skip
      let n ← nodeUnless handles fuel true false [.blockEntry, .key, .value, .blockEnd]
      return n :: (← dashItems handles fuel)
    | _ => return []

def blockEntries (handles : List (String × String)) : Nat → Read (List (Node × Node))
  | 0 => refuse
  | fuel + 1 => do
    match (← peek?) with
    | some .key =>
      skip
      let k ← nodeUnless handles fuel true true [.key, .value, .blockEnd]
      let v ← blockValue handles fuel
      return (k, v) :: (← blockEntries handles fuel)
    | some .blockEnd => skip; return []
    | _ => refuse

def blockValue (handles : List (String × String)) : Nat → Read Node
  | 0 => refuse
  | fuel + 1 => do
    if (← sees [.value]) then
      skip
      nodeUnless handles fuel true true [.key, .value, .blockEnd]
    else return .blank

/-- The entries of a sequence in brackets; an entry may be a single pair. -/
def flowItems (handles : List (String × String)) : Nat → Bool → Read (List Node)
  | 0, _ => refuse
  | fuel + 1, first => do
    if (← sees [.flowSequenceEnd]) then
      skip
      return []
    if !first then expect .flowEntry
    match (← peek?) with
    | some .key =>
      skip
      let ends : List Token := [.value, .flowEntry, .flowSequenceEnd]
      let blank ← sees ends
      let k ← nodeUnless handles fuel false false ends
      if blank then skip
      let v ← flowValue handles fuel [.flowEntry, .flowSequenceEnd]
      return .mapping [(k, v)] :: (← flowItems handles fuel false)
    | some .flowSequenceEnd => skip; return []
    | _ =>
      let n ← node handles fuel false false
      return n :: (← flowItems handles fuel false)

def flowEntries (handles : List (String × String)) : Nat → Bool → Read (List (Node × Node))
  | 0, _ => refuse
  | fuel + 1, first => do
    if (← sees [.flowMappingEnd]) then
      skip
      return []
    if !first then expect .flowEntry
    match (← peek?) with
    | some .key =>
      skip
      let k ← nodeUnless handles fuel false false [.value, .flowEntry, .flowMappingEnd]
      let v ← flowValue handles fuel [.flowEntry, .flowMappingEnd]
      return (k, v) :: (← flowEntries handles fuel false)
    | some .flowMappingEnd => skip; return []
    | _ =>
      let k ← node handles fuel false false
      return (k, .blank) :: (← flowEntries handles fuel false)

def flowValue (handles : List (String × String)) : Nat → List Token → Read Node
  | 0, _ => refuse
  | fuel + 1, ends => do
    if (← sees [.value]) then
      skip
      nodeUnless handles fuel false false ends
    else return .blank

end

/-! ## Documents -/

/-- The directives before a document: at most one version, which must be 1.1 or 1.2, and the handles
of tags, each given once. -/
def directives : Nat → Bool → List (String × String) → Read (List (String × String))
  | 0, _, _ => refuse
  | fuel + 1, versioned, handles => do
    match (← peek?) with
    | some (.version major minor) =>
      if versioned || major != 1 || !(minor == 1 || minor == 2) then refuse
      skip
      directives fuel true handles
    | some (.tagHandle handle lead) =>
      if handles.any (fun h => h.1 == handle) then refuse
      skip
      directives fuel versioned (handles ++ [(handle, lead)])
    | _ => return handles

/-- Passes over the marks at the end of a document. -/
def skipEnds : Nat → Read Unit
  | 0 => pure ()
  | fuel + 1 => do
    if (← sees [.documentEnd]) then
      skip
      skipEnds fuel

/-- The handles that every document knows. -/
def standardHandles : List (String × String) := [("!", "!"), ("!!", "tag:yaml.org,2002:")]

/-- The only document of a text, or none if the text is empty. -/
def document (fuel : Nat) : Read (Option Node) := do
  match (← peek?) with
  | none => return none
  | some t =>
    let explicit := match t with
      | .version _ _ => true
      | .tagHandle _ _ => true
      | .documentStart => true
      | _ => false
    let root ←
      if explicit then do
        let handles ← directives fuel false []
        expect .documentStart
        let ended := match (← peek?) with
          | none => true
          | some (.version _ _) => true
          | some (.tagHandle _ _) => true
          | some .documentStart => true
          | some .documentEnd => true
          | _ => false
        if ended then pure Node.blank else node (handles ++ standardHandles) fuel true false
      else node standardHandles fuel true false
    skipEnds fuel
    match (← peek?) with
    | none => return some root
    | some _ => refuse

end Read

/-- A document with the nodes that its aliases refer to. -/
structure Document where
  root : Option Node
  slots : List (Nat × Node)
deriving Repr, Inhabited

namespace Document

def read? (text : String) : Option Document := do
  let tokens ← tokens? text
  let (root, r) ← (Read.document (4 * tokens.length + 4)).run ⟨tokens, [], []⟩
  return ⟨root, r.slots⟩

/-- The node that an alias refers to, or the node itself. -/
def resolve (d : Document) : Node → Option Node
  | .alias slot => (d.slots.find? (fun s => s.1 == slot)).map (·.2)
  | n => some n

end Document

end CodeAtlas.Yaml
