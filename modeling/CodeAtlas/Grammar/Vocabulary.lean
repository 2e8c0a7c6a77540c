/-!
The vocabulary of a grammar: the node kinds, fields and tokens that a query for it may name.
-/

namespace CodeAtlas

/-- What a query for a grammar may name. -/
structure Vocabulary where
  /-- Kinds of named nodes. -/
  kinds : List String
  /-- Fields under which nodes hold children. -/
  fields : List String
  /-- Keywords and punctuation marks. -/
  tokens : List String
deriving Repr, Inhabited

namespace Vocabulary

def knowsKind (v : Vocabulary) (kind : String) : Bool :=
  v.kinds.contains kind

def knowsField (v : Vocabulary) (field : String) : Bool :=
  v.fields.contains field

def knowsToken (v : Vocabulary) (token : String) : Bool :=
  v.tokens.contains token

end Vocabulary

end CodeAtlas
