import CodeAtlas.Entity.Structure
import CodeAtlas.ListRuns

/-!
Looking around in a source file: the scopes around an offset, what stands there, the documentation
above a declaration, the types and methods of a file, and what a click selects.  All but the
selection are read off the profile's queries.
-/

namespace CodeAtlas

/-- A node with something to show. -/
structure HoverTarget where
  text : String
  nodeKind : String
  span : Span
  /-- The text names a type of the language itself. -/
  isBuiltin : Bool
deriving DecidableEq, Repr

structure NamedSpan where
  name : String
  span : Span
deriving DecidableEq, Repr

structure MethodSignature where
  name : String
  parameters : String
  returnType : Option String
  span : Span
deriving DecidableEq, Repr

/-- The comments above a declaration. -/
structure DocComment where
  text : String
  span : Span
deriving DecidableEq, Repr

/-- What a click selects. -/
structure Selection where
  nodeKind : String
  span : Span
  /-- The selection went up from the node at the offset. -/
  widened : Bool
deriving DecidableEq, Repr

namespace SourceFile

variable [QueryEngine]

/-! ## Captures -/

/-- The captures of every match of one of a profile's queries. -/
def capturesOf (f : SourceFile) (p : Profile) (name : QueryName) : Except Failure (List Captures) :=
  match f.grammarIn p name with
  | .error e => .error e
  | .ok g =>
    match QueryCache.compile ⟨g, (p.queries.get name).source⟩ with
    | .error e => .error e
    | .ok q => .ok ((q.run f.bytes f.root).map (·.captures))

/-- The nodes under one label, in the order of the matches. -/
def labelled (label : String) (matched : List Captures) : List NodeInfo :=
  (matched.flatten.filter (fun c => c.1 == label)).map (·.2.info)

def first? (label : String) (captures : Captures) : Option NodeInfo :=
  (captures.find? (fun c => c.1 == label)).map (·.2.info)

def collapsedText (f : SourceFile) (i : NodeInfo) : String :=
  Text.collapse (f.nodeText i)

/-! ## Scopes and hovering -/

/-- Shorter spans first, and of equally long ones the later. -/
def innerFirst (s t : Span) : Bool :=
  s.length < t.length || (s.length == t.length && t.startByte ≤ s.startByte)

/-- The distinct spans that hold an offset, innermost first. -/
def scopesAt (offset : Nat) (spans : List Span) : List Span :=
  firstOfRuns (· == ·) ((spans.filter (·.containsOffset offset)).mergeSort innerFirst)

def enclosingScopes (f : SourceFile) (p : Profile) (offset : Nat) : Except Failure (List Span) := do
  let matched ← f.capturesOf p .scope
  return scopesAt offset ((labelled "scope" matched).map f.spanOf)

/-- The first of the shortest nodes that hold an offset. -/
def shortestAt (offset : Nat) (nodes : List NodeInfo) : Option NodeInfo :=
  (nodes.filter (·.holds offset)).minOn? (·.length)

/-- The innermost node at an offset that has something to show. -/
def hoverTarget (f : SourceFile) (p : Profile) (offset : Nat) :
    Except Failure (Option HoverTarget) := do
  let matched ← f.capturesOf p .hoverable
  return (shortestAt offset (labelled "hover" matched)).map fun i =>
    let text := f.collapsedText i
    ⟨text, i.kind, f.spanOf i, p.isBuiltinType text⟩

/-! ## Documentation -/

/-- A line that may stand between a comment and its declaration: blank, an attribute or a
decorator. -/
def isGapLine (line : List Char) : Bool :=
  let line := Text.trimChars line
  line.isEmpty || (Text.stripLead? ['#', '['] line).isSome || line.head? == some '@'

/-- Whether a comment reaches over these bytes. -/
def isGap (bytes : List UInt8) : Bool :=
  (Text.lines (Text.Utf8.decodeLossy bytes).toList).all isGapLine

/-- The comments that reach a boundary, nearest first, out of comments listed from the last to the
first.  Comments that end after the boundary are passed over. -/
def attached (bytes : List UInt8) : Nat → List NodeInfo → List NodeInfo
  | _, [] => []
  | boundary, n :: ns =>
    if boundary < n.endByte then attached bytes boundary ns
    else if boundary ≤ bytes.length && isGap ((bytes.drop n.endByte).take (boundary - n.endByte)) then
      n :: attached bytes n.startByte ns
    else []

/-- Distinct nodes in the order of their starts. -/
def byStart {α : Type} (start : α → Nat) (l : List α) : List α :=
  firstOfRuns (fun a b => start a == start b) (l.mergeSort (fun a b => start a ≤ start b))

def commentText (f : SourceFile) (i : NodeInfo) : String :=
  String.ofList
    (Text.dropTrailing Text.isBlank (Text.Utf8.decodeLossy (i.bytes f.bytes)).toList)

/-- The comments directly above a byte offset, out of the given nodes. -/
def docCommentAbove (f : SourceFile) (comments : List NodeInfo) (start : Nat) : Option DocComment :=
  let run := (attached f.bytes start (byStart (·.startByte) comments).reverse).reverse
  match run.head?, run.getLast? with
  | some first, some last =>
    some ⟨Text.join "\n" (run.map f.commentText), Span.ofRange f.bytes first.startByte last.endByte⟩
  | _, _ => none

/-- The documentation of a declaration that starts at a byte offset. -/
def docComment (f : SourceFile) (p : Profile) (start : Nat) : Except Failure (Option DocComment) := do
  let matched ← f.capturesOf p .docComment
  return f.docCommentAbove (labelled "doc" matched) start

/-! ## Declarations -/

/-- The declarations of a query that have a name, in source order. -/
def named (f : SourceFile) (p : Profile) (query : QueryName) (label : String) :
    Except Failure (List NamedSpan) := do
  let matched ← f.capturesOf p query
  let found := matched.filterMap fun captures => do
    let node ← first? label captures
    let name ← first? "name" captures
    return (⟨f.collapsedText name, f.spanOf node⟩ : NamedSpan)
  return byStart (·.span.startByte) found

def classes (f : SourceFile) (p : Profile) : Except Failure (List NamedSpan) :=
  f.named p .classes "class"

def methods (f : SourceFile) (p : Profile) : Except Failure (List NamedSpan) :=
  f.named p .methods "method"

/-- The return type that a signature shows. -/
def returnText (f : SourceFile) (i : NodeInfo) : String :=
  String.ofList (Text.bareType (f.collapsedText i).toList)

def signatures (f : SourceFile) (p : Profile) : Except Failure (List MethodSignature) := do
  let matched ← f.capturesOf p .signature
  let found := matched.filterMap fun captures => do
    let node ← first? "signature" captures
    let name ← first? "name" captures
    return ({
      name := f.collapsedText name
      parameters := ((first? "params" captures).map f.collapsedText).getD ""
      returnType := (first? "return" captures).map f.returnText
      span := f.spanOf node } : MethodSignature)
  return byStart (·.span.startByte) found

/-! ## Selection -/

/-- The deepest named node at an offset, followed by the nodes around it up to the root. -/
def namedPath (root : Node) (offset : Nat) : List NodeInfo :=
  match Node.pathAt offset root with
  | [] => []
  | top :: entered => entered.reverse.dropWhile (fun i => !i.named) ++ [top]

/-- The first node of a path whose kind does not widen, or its last one; also whether it is not the
first. -/
def widen (widens : String → Bool) : Bool → List NodeInfo → Option (NodeInfo × Bool)
  | _, [] => none
  | moved, [i] => some (i, moved)
  | moved, i :: j :: rest =>
    if widens i.kind then widen widens true (j :: rest) else some (i, moved)

/-- What a click at an offset selects. -/
def selection (f : SourceFile) (p : Profile) (offset : Nat) : Option Selection :=
  (widen p.widens false (namedPath f.root offset)).map
    fun (i, moved) => ⟨i.kind, f.spanOf i, moved⟩

end SourceFile

end CodeAtlas
