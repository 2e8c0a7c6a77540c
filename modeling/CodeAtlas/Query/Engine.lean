import CodeAtlas.Grammar.Handle
import CodeAtlas.Tree.Node

/-!
Queries over syntax trees.  The library that compiles and runs them is a parameter: a `QueryEngine`
reads the text of a query for a grammar, or says in words why it cannot, and finds the matches of a
query in a tree.  Everything about the cache and about structuring is said for every engine.
-/

namespace CodeAtlas

/-- The captured nodes of one match, each with its label. -/
abbrev Captures := List (String × Node)

/-- A match: the captures of the clause with the given index. -/
structure QueryMatch where
  clause : Nat
  captures : Captures
deriving Repr

/-- A library for queries. -/
class QueryEngine where
  /-- What a query is compiled to. -/
  Code : Type
  compile : Handle → String → Except String Code
  /-- The capture labels, in order of first appearance. -/
  labels : Code → List String
  /-- The matches in the tree of a text. -/
  run : Code → List UInt8 → Node → List QueryMatch

def Query [QueryEngine] : Type := QueryEngine.Code

namespace Query

variable [QueryEngine]

/-- Compiles a query text against a grammar handle; a failure is the text of its message. -/
def compile (handle : Handle) (source : String) : Except String Query :=
  QueryEngine.compile handle source

def labels (q : Query) : List String :=
  QueryEngine.labels q

def run (q : Query) (bytes : List UInt8) (root : Node) : List QueryMatch :=
  QueryEngine.run q bytes root

end Query

end CodeAtlas
