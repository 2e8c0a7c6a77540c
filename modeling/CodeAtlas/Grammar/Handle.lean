/-!
Grammar handles.  A handle is one of the grammars that a parser is available for; a `Grammar` is a
handle under an id, and the same handle may stand under several ids.
-/

namespace CodeAtlas

inductive Handle where
  | c
  | cpp
  | go
  | java
  | javascript
  | python
  | rust
  | typescript
  | tsx
deriving DecidableEq, Repr, Inhabited

namespace Handle

def all : List Handle :=
  [.c, .cpp, .go, .java, .javascript, .python, .rust, .typescript, .tsx]

/-- The name of a handle, which is also the id it has in the built-in profiles. -/
def name : Handle → String
  | .c => "c"
  | .cpp => "cpp"
  | .go => "go"
  | .java => "java"
  | .javascript => "javascript"
  | .python => "python"
  | .rust => "rust"
  | .typescript => "typescript"
  | .tsx => "tsx"

def ofName? (s : String) : Option Handle :=
  all.find? (fun h => h.name == s)

end Handle

/-- A grammar handle under an id. -/
structure Grammar where
  id : String
  handle : Handle
deriving DecidableEq, Repr, Inhabited

namespace Grammar

def ofHandle (h : Handle) : Grammar := ⟨h.name, h⟩

end Grammar

end CodeAtlas
