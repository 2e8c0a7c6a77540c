import CodeAtlas.Profile.Builtin.C
import CodeAtlas.Profile.Builtin.Cpp
import CodeAtlas.Profile.Builtin.Go
import CodeAtlas.Profile.Builtin.Java
import CodeAtlas.Profile.Builtin.JavaScript
import CodeAtlas.Profile.Builtin.Python
import CodeAtlas.Profile.Builtin.Rust
import CodeAtlas.Profile.Builtin.TypeScript

/-!
The built-in language definitions.
-/

namespace CodeAtlas.Definition

/-- The built-in definitions, in the order in which they are registered. -/
def builtin : List Definition :=
  [c, cpp, go, java, javascript, python, rust, typescript]

def builtin? (id : String) : Option Definition :=
  builtin.find? (fun d => d.id == id)

end CodeAtlas.Definition
