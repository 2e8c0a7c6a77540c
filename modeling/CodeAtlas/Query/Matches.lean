import CodeAtlas.Query.Engine
import CodeAtlas.Query.Pattern
import CodeAtlas.Text.Utf8

/-!
Matching queries.  Every way to choose children for the items of a pattern, in source order and not
necessarily adjacent, is a match of its own.  An optional item is left out only when no choice that
takes it succeeds, and a repeated item takes as many children as it can.  A match lists the captured
nodes, outer nodes first.

An item under a field stops its search at a punctuation mark that the grammar holds under the same
field, so of several names listed under one field only those before the first comma are found.
-/

namespace CodeAtlas

namespace NodeTest

/-- Whether a node passes the test.  Error nodes are found by their kind only. -/
def accepts (t : NodeTest) (i : NodeInfo) : Bool :=
  match t with
  | .anything => !i.faulty
  | .anyNamed => i.named && !i.faulty
  | .kind k => i.named && i.kind == k
  | .token s => !i.named && i.kind == s

end NodeTest

namespace Pattern

/-- Every match of a node joined with every match of what follows. -/
def cross (here : List Captures) (after : List Captures) : List Captures :=
  here.flatMap (fun m => after.map (m ++ ·))

/-- Whether a sibling ends the search of a pattern that does not match it. -/
def endsAt : Pattern → NodeInfo → Bool
  | .node _ (some f) _ _ _ _, i => !i.named && i.field == some f
  | _, _ => false

/-- The matches that take one of the siblings and go on after it. -/
def takeOne (here : Node → List Captures) (ends : NodeInfo → Bool)
    (after : List Node → List Captures) : List Node → List Captures
  | [] => []
  | c :: cs =>
    match here c with
    | [] => if ends c.info then [] else takeOne here ends after cs
    | ms => cross ms (after cs) ++ takeOne here ends after cs

/-- The matches that take as many siblings as they can, and at least one. -/
def takeMany (here : Node → List Captures) (ends : NodeInfo → Bool)
    (after : List Node → List Captures) : List Node → List Captures
  | [] => []
  | c :: cs =>
    match here c with
    | [] => if ends c.info then [] else takeMany here ends after cs
    | ms =>
      match takeMany here ends after cs with
      | [] => cross ms (after cs)
      | rest => cross ms rest

/-- `first`, or `second` when there is none. -/
def orInstead (first : List Captures) (second : Unit → List Captures) : List Captures :=
  match first with
  | [] => second ()
  | ms => ms

mutual

/-- The matches of a pattern at one node. -/
def atNode : Pattern → Node → List Captures
  | .node _ field captures test absent items, n =>
    if test.accepts n.info && (field.isNone || n.info.field == field) &&
        n.children.all (fun c => !(c.info.field.any absent.contains)) then
      (amongSiblings items n.children).map (captures.map (·, n) ++ ·)
    else []
  | .choice _ branches, n => atNodeAny branches n

def atNodeAny : List Pattern → Node → List Captures
  | [], _ => []
  | p :: ps, n => atNode p n ++ atNodeAny ps n

/-- The ways to match patterns, in order, among siblings. -/
def amongSiblings : List Pattern → List Node → List Captures
  | [], _ => [[]]
  | p :: ps, cs =>
    match p.quantity with
    | .one => takeOne (atNode p) p.endsAt (amongSiblings ps) cs
    | .optional =>
      orInstead (takeOne (atNode p) p.endsAt (amongSiblings ps) cs) (fun _ => amongSiblings ps cs)
    | .many => takeMany (atNode p) p.endsAt (amongSiblings ps) cs
    | .any =>
      orInstead (takeMany (atNode p) p.endsAt (amongSiblings ps) cs) (fun _ => amongSiblings ps cs)

end

end Pattern

namespace Node

mutual

/-- Every node of a tree together with the siblings after it, in preorder. -/
def runs (later : List Node) : Node → List (Node × List Node)
  | .node i cs => (.node i cs, later) :: runsAll cs

def runsAll : List Node → List (Node × List Node)
  | [] => []
  | n :: ns => runs ns n ++ runsAll ns

end

end Node

namespace Predicate

def under (label : String) (captures : Captures) : List NodeInfo :=
  (captures.filter (fun c => c.1 == label)).map (·.2.info)

/-- Whether a predicate holds of the captures of a match. -/
def holds (source : List UInt8) (captures : Captures) : Predicate → Bool
  | .equal wanted label (.text t) =>
    (under label captures).all (fun n => (n.bytes source == Text.Utf8.encode t) == wanted)
  | .equal wanted label (.capture other) =>
    ((under label captures).zip (under other captures)).all
      (fun p => (p.1.bytes source == p.2.bytes source) == wanted)
  | .search wanted label r =>
    (under label captures).all (fun n => r.search (Text.Utf8.units (n.bytes source)) == wanted)
  | .oneOf wanted label texts =>
    (under label captures).all
      (fun n => texts.any (fun t => n.bytes source == Text.Utf8.encode t) == wanted)

end Predicate

namespace Clause

/-- The matches of a clause that start at a node with the given later siblings. -/
def atRun (source : List UInt8) (c : Clause) (n : Node) (later : List Node) : List Captures :=
  match c.siblings with
  | [] => []
  | p :: ps =>
    (Pattern.cross (p.atNode n) (Pattern.amongSiblings ps later)).filter
      (fun m => c.predicates.all (·.holds source m))

end Clause

namespace TreeQuery

/-- The matches that start at one node, by clause. -/
def atRun (q : TreeQuery) (source : List UInt8) (n : Node) (later : List Node) : List QueryMatch :=
  q.clauses.zipIdx.flatMap (fun c => (c.1.atRun source n later).map (⟨c.2, ·⟩))

/-- Every match of a query in a tree, by the node that it starts at and then by clause. -/
def run (q : TreeQuery) (source : List UInt8) (root : Node) : List QueryMatch :=
  (root.runs []).flatMap (fun r => q.atRun source r.1 r.2)

end TreeQuery

end CodeAtlas
