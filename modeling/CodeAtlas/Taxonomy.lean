import CodeAtlas.Kind

/-!
Taxonomies: the kinds that one language declares, in named groups.
-/

namespace CodeAtlas

/-- A named, ordered group of kinds. -/
structure KindGroup where
  name : String
  kinds : List Kind
deriving DecidableEq, Repr, Inhabited

namespace KindGroup

def modules : KindGroup := ⟨"modules", [.moduleDecl, .importDecl]⟩

def functions : KindGroup := ⟨"functions", [.functionDecl, .methodDecl]⟩

end KindGroup

/-- The kinds of one language, by group. -/
structure Taxonomy where
  groups : List KindGroup
deriving DecidableEq, Repr, Inhabited

namespace Taxonomy

/-- Every kind, in the order of the groups; a kind of several groups occurs once for each. -/
def kinds (t : Taxonomy) : List Kind :=
  t.groups.flatMap (·.kinds)

def contains (t : Taxonomy) (k : Kind) : Bool :=
  t.kinds.contains k

/-- The name of the first group that holds a kind. -/
def groupOf? (t : Taxonomy) (k : Kind) : Option String :=
  (t.groups.find? (fun g => g.kinds.contains k)).map (·.name)

def isEmpty (t : Taxonomy) : Bool :=
  t.kinds.isEmpty

theorem contains_iff (t : Taxonomy) (k : Kind) :
    t.contains k = true ↔ ∃ g ∈ t.groups, k ∈ g.kinds := by
  simp [contains, kinds]

end Taxonomy

end CodeAtlas
