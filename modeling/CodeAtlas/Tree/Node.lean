/-!
Syntax trees.  A node has a kind, a byte range, the field under which its parent holds it, and its
children in source order.  Keywords and punctuation marks are nodes that are not named.  `hasFault`
is set on every node whose subtree the parser had to repair, and sometimes on others.

`firstFault?` looks for the first error or missing node and passes over subtrees without the mark;
`pathAt` is the chain of nodes that hold an offset.
-/

namespace CodeAtlas

structure NodeInfo where
  kind : String
  startByte : Nat
  endByte : Nat
  /-- Named in the grammar, as opposed to a keyword or a punctuation mark. -/
  named : Bool
  /-- Inserted by the parser, without text. -/
  missing : Bool
  /-- Text that the parser could not place. -/
  faulty : Bool
  /-- A comment or another node that may stand anywhere. -/
  extra : Bool
  /-- The parser repaired something at or below this node. -/
  hasFault : Bool
  /-- The field of the parent that holds this node. -/
  field : Option String
deriving DecidableEq, Repr, Inhabited

namespace NodeInfo

def length (i : NodeInfo) : Nat :=
  i.endByte - i.startByte

def bytes (source : List UInt8) (i : NodeInfo) : List UInt8 :=
  (source.drop i.startByte).take (i.endByte - i.startByte)

/-- Whether a node covers the byte at an offset. -/
def holds (i : NodeInfo) (offset : Nat) : Bool :=
  i.startByte ≤ offset && offset < i.endByte

/-- An error node or one that the parser inserted. -/
def isFault (i : NodeInfo) : Bool :=
  i.faulty || i.missing

end NodeInfo

inductive Node where
  | node (info : NodeInfo) (children : List Node)
deriving Repr

namespace Node

instance : Inhabited Node := ⟨.node default []⟩

def info : Node → NodeInfo
  | .node i _ => i

def children : Node → List Node
  | .node _ cs => cs

mutual

/-- A node and everything below it, parents first. -/
def preorder : Node → List Node
  | .node i cs => .node i cs :: preorderAll cs

def preorderAll : List Node → List Node
  | [] => []
  | n :: ns => preorder n ++ preorderAll ns

end

/-! ## Repairs -/

mutual

/-- The first fault at or below a node, where subtrees without the mark are passed over. -/
def firstFault? : Node → Option Node
  | .node i cs =>
    if i.isFault then some (.node i cs) else if i.hasFault then firstFaultOf? cs else none

def firstFaultOf? : List Node → Option Node
  | [] => none
  | n :: ns =>
    match firstFault? n with
    | some fault => some fault
    | none => firstFaultOf? ns

end

/-! ## Offsets -/

mutual

/-- The chain of nodes that hold an offset: the root, then again and again the first child that
covers the offset. -/
def pathAt (offset : Nat) : Node → List NodeInfo
  | .node i cs => i :: pathIn offset cs

/-- The chain that starts at the first of several siblings that covers the offset. -/
def pathIn (offset : Nat) : List Node → List NodeInfo
  | [] => []
  | n :: ns => if n.info.holds offset then pathAt offset n else pathIn offset ns

end

/-! ## Rows -/

/-- One row of a tree listed in preorder: the depth of a node and the node. -/
structure Row where
  depth : Nat
  info : NodeInfo
deriving DecidableEq, Repr

/-- Puts a row in front of the trees that follow it: those that lie deeper are its children. -/
def adopt (row : Row) (following : List (Nat × Node)) : List (Nat × Node) :=
  let below := following.takeWhile (fun t => row.depth < t.1)
  (row.depth, .node row.info (below.map (·.2))) :: following.dropWhile (fun t => row.depth < t.1)

/-- The tree whose preorder listing is given. -/
def ofRows? (rows : List Row) : Option Node :=
  (rows.foldr adopt []).head?.map (·.2)

end Node

end CodeAtlas
