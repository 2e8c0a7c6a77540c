import CodeAtlas.Grammar.C
import CodeAtlas.Grammar.Cpp
import CodeAtlas.Grammar.Go
import CodeAtlas.Grammar.Handle
import CodeAtlas.Grammar.Java
import CodeAtlas.Grammar.JavaScript
import CodeAtlas.Grammar.Python
import CodeAtlas.Grammar.Rust
import CodeAtlas.Grammar.Tsx
import CodeAtlas.Grammar.TypeScript

/-!
The vocabularies of the grammars.
-/

namespace CodeAtlas.Handle

/-- What queries for the grammar may name. -/
def vocabulary : Handle → Vocabulary
  | .c => .c
  | .cpp => .cpp
  | .go => .go
  | .java => .java
  | .javascript => .javascript
  | .python => .python
  | .rust => .rust
  | .typescript => .typescript
  | .tsx => .tsx

end CodeAtlas.Handle
