import CodeAtlas.Query.Regex

/-!
Queries: patterns over syntax trees.  A pattern asks for a node of some kind, under some field, with
children that match further patterns in order; the nodes it matches can be captured under labels.
The predicates of a pattern look at the text of what it captured.
-/

namespace CodeAtlas

/-- What a pattern asks of a node. -/
inductive NodeTest where
  /-- Any node, named or not. -/
  | anything
  /-- Any named node. -/
  | anyNamed
  /-- A named node of one kind. -/
  | kind (name : String)
  /-- A keyword or punctuation mark. -/
  | token (text : String)
deriving DecidableEq, Repr, Inhabited

/-- How many children one pattern takes. -/
inductive Quantity where
  | one
  | optional
  | many
  | any
deriving DecidableEq, Repr, Inhabited

/-- A pattern for one node. -/
inductive Pattern where
  | node (quantity : Quantity) (field : Option String) (captures : List String) (test : NodeTest)
      (absent : List String) (items : List Pattern)
  | choice (quantity : Quantity) (branches : List Pattern)
deriving Repr, Inhabited

namespace Pattern

def quantity : Pattern → Quantity
  | .node q _ _ _ _ _ => q
  | .choice q _ => q

/-- A pattern for exactly one node. -/
def ofTest (test : NodeTest) (absent : List String) (items : List Pattern) : Pattern :=
  .node .one none [] test absent items

/-- A second quantity on top of a first. -/
def combine : Quantity → Quantity → Quantity
  | .one, q => q
  | q, .one => q
  | .optional, .optional => .optional
  | .many, .many => .many
  | _, _ => .any

def withQuantity (q : Quantity) : Pattern → Pattern
  | .node q₀ f c t a i => .node (combine q₀ q) f c t a i
  | .choice q₀ bs => .choice (combine q₀ q) bs

mutual

/-- The pattern with one more capture label; a choice captures whichever branch matches. -/
def withCapture (label : String) : Pattern → Pattern
  | .node q f c t a i => .node q f (c ++ [label]) t a i
  | .choice q bs => .choice q (withCaptureAll label bs)

def withCaptureAll (label : String) : List Pattern → List Pattern
  | [] => []
  | p :: ps => withCapture label p :: withCaptureAll label ps

end

mutual

/-- The pattern for a node under a field. -/
def withField (field : String) : Pattern → Pattern
  | .node q _ c t a i => .node q (some field) c t a i
  | .choice q bs => .choice q (withFieldAll field bs)

def withFieldAll (field : String) : List Pattern → List Pattern
  | [] => []
  | p :: ps => withField field p :: withFieldAll field ps

end

end Pattern

inductive Argument where
  | capture (label : String)
  | text (value : String)
deriving DecidableEq, Repr, Inhabited

/-- A predicate as it is written: its operator and its arguments. -/
structure Condition where
  operator : String
  arguments : List Argument
deriving DecidableEq, Repr, Inhabited

/-- A predicate that can be decided. -/
inductive Predicate where
  | equal (wanted : Bool) (label : String) (other : Argument)
  | search (wanted : Bool) (label : String) (regex : Regex)
  | oneOf (wanted : Bool) (label : String) (texts : List String)
deriving Repr, Inhabited

/-- A top-level pattern of a query: sibling patterns, of which most queries have one, and the
predicates on what they capture. -/
structure Clause where
  siblings : List Pattern
  predicates : List Predicate
deriving Repr, Inhabited

/-- A query that has been read.  `labels` lists the capture labels in order of first appearance. -/
structure TreeQuery where
  clauses : List Clause
  labels : List String
deriving Repr, Inhabited

end CodeAtlas
