import CodeAtlas.Kind
import CodeAtlas.Span

/-!
Program entities.  An entity owns its children and names the entity that owns it by id only.
`preorder` lists a forest by recursion, parents first; `walk` lists it with a stack of trees still
to visit, and the two agree (`walk_eq_preorder`).
-/

namespace CodeAtlas

/-- The number of an entity within its file. -/
structure EntityId where
  number : UInt32
deriving DecidableEq, Repr, Inhabited

namespace EntityId

/-- The id of the entity at a position; ids have 32 bits. -/
def ofIndex (i : Nat) : EntityId := ⟨i.toUInt32⟩

def describe (id : EntityId) : String := "#" ++ toString id.number.toNat

end EntityId

/-- What an entity says about itself. -/
structure Facts where
  id : EntityId
  kind : Kind
  name : String
  declaredType : Option String
  returnType : Option String
  /-- A base, an implemented interface, a receiver or an import source, as text. -/
  reference : Option String
  /-- The entity that owns this one. -/
  parent : Option EntityId
  span : Span
deriving DecidableEq, Repr, Inhabited

/-- An entity with the entities declared inside it. -/
inductive Entity where
  | entity (facts : Facts) (children : List Entity)
deriving Repr, BEq

namespace Entity

instance : Inhabited Entity := ⟨.entity default []⟩

def facts : Entity → Facts
  | .entity f _ => f

def children : Entity → List Entity
  | .entity _ cs => cs

/-- The entity as a child of the entity with an id. -/
def ownedBy (owner : EntityId) : Entity → Entity
  | .entity f cs => .entity { f with parent := some owner } cs

def childrenOfKind (e : Entity) (k : Kind) : List Entity :=
  e.children.filter (fun c => c.facts.kind == k)

/-! ## Listing -/

mutual

/-- An entity and everything below it, parents first. -/
def preorder : Entity → List Entity
  | .entity f cs => .entity f cs :: preorderAll cs

def preorderAll : List Entity → List Entity
  | [] => []
  | e :: es => preorder e ++ preorderAll es

end

mutual

def size : Entity → Nat
  | .entity _ cs => 1 + sizeAll cs

def sizeAll : List Entity → Nat
  | [] => 0
  | e :: es => size e + sizeAll es

end

theorem sizeAll_append (es fs : List Entity) : sizeAll (es ++ fs) = sizeAll es + sizeAll fs := by
  induction es with
  | nil => simp [sizeAll]
  | cons e es ih => simp [sizeAll, ih]; omega

theorem size_eq (e : Entity) : e.size = 1 + sizeAll e.children := by
  cases e; simp [size, children]

/-- The entities of a forest, by a stack of trees: the next tree is visited and its children are put
in front of the trees that wait. -/
def walk : List Entity → List Entity
  | [] => []
  | e :: waiting => e :: walk (e.children ++ waiting)
termination_by stack => sizeAll stack
decreasing_by
  simp only [sizeAll, sizeAll_append, size_eq]
  omega

theorem preorderAll_append (es fs : List Entity) :
    preorderAll (es ++ fs) = preorderAll es ++ preorderAll fs := by
  induction es with
  | nil => simp [preorderAll]
  | cons e es ih => simp [preorderAll, ih]

theorem preorder_eq (e : Entity) : e.preorder = e :: preorderAll e.children := by
  cases e; simp [preorder, children]

theorem walk_eq_preorder (stack : List Entity) : walk stack = preorderAll stack := by
  fun_induction walk stack with
  | case1 => simp [preorderAll]
  | case2 e waiting ih => rw [ih, preorderAll_append, preorderAll, preorder_eq]; rfl

/-- The first entity of a forest, parents first, with a kind and a name. -/
def find? (kind : Kind) (name : String) (forest : List Entity) : Option Entity :=
  (walk forest).find? (fun e => e.facts.kind == kind && e.facts.name == name)

/-- The first entity of a forest, parents first, with an id. -/
def findById? (id : EntityId) (forest : List Entity) : Option Entity :=
  (walk forest).find? (fun e => e.facts.id == id)

end Entity

end CodeAtlas
