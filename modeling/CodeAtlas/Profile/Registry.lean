import CodeAtlas.Profile.Builtin

/-!
The registry of profiles.  A profile is found by a file extension, its id or an alias.  Registering
a profile takes over the keys it declares, and registering an id again first gives up everything
that was bound to it.
-/

namespace CodeAtlas

/-- A table from keys to the ids of profiles. -/
abbrev Bindings := List (String × String)

namespace Bindings

def owner? (b : Bindings) (key : String) : Option String :=
  (b.find? (fun e => e.1 == key)).map (·.2)

/-- The table with a key bound to an owner. -/
def bind (b : Bindings) (key owner : String) : Bindings :=
  (key, owner) :: b.filter (fun e => e.1 != key)

/-- The table without the keys of an owner. -/
def release (b : Bindings) (owner : String) : Bindings :=
  b.filter (fun e => e.2 != owner)

/-- The table with several keys bound to an owner. -/
def bindAll (b : Bindings) (keys : List String) (owner : String) : Bindings :=
  keys.foldl (fun b key => b.bind key owner) b

end Bindings

/-- Registered profiles with the keys that lead to them. -/
structure Registry where
  profiles : List Profile
  names : Bindings
  extensions : Bindings
deriving Inhabited

namespace Registry

def empty : Registry := ⟨[], [], []⟩

/-- A key without surrounding blanks and leading dots, in lower case. -/
def normalize (key : String) : String :=
  String.ofList (((Text.trimChars key.toList).dropWhile (· == '.')).map Char.toLower)

def profile? (r : Registry) (id : String) : Option Profile :=
  r.profiles.find? (fun p => p.id == id)

/-- The registry without a profile and everything bound to it. -/
def withdraw (r : Registry) (id : String) : Registry where
  profiles := r.profiles.filter (fun p => p.id != id)
  names := r.names.release id
  extensions := r.extensions.release id

/-- Registers a profile; the last registration of an id holds. -/
def register (r : Registry) (p : Profile) : Registry :=
  let r := if (r.profile? p.id).isSome then r.withdraw p.id else r
  { profiles := p :: r.profiles
    names := r.names.bindAll ((p.id :: p.aliases).map normalize) p.id
    extensions := r.extensions.bindAll (p.extensions.map normalize) p.id }

/-- The profile of a key: by extension first, then by id or alias. -/
def resolve? (r : Registry) (key : String) : Option Profile :=
  let key := normalize key
  match r.extensions.owner? key with
  | some id => r.profile? id
  | none => (r.names.owner? key).bind r.profile?

def sorted (r : Registry) : List Profile :=
  r.profiles.mergeSort (fun p q => Text.lexLe p.id q.id)

/-- Which profiles declare which kinds: every kind with the id of every profile that has it in some
group, once. -/
def kindOwners (r : Registry) : List (Kind × String) :=
  r.sorted.foldl (fun owners p =>
    p.taxonomy.kinds.foldl (fun owners k => owners.insert (k, p.id)) owners) []

/-- The kinds that exactly one profile declares, each with the id of that profile. -/
def localKinds (r : Registry) : List (Kind × String) :=
  Kind.all.filterMap fun k =>
    match r.kindOwners.filter (fun e => e.1 == k) with
    | [owner] => some owner
    | _ => none

/-- Registers definitions one after another; the first fault ends it. -/
def registerAll (r : Registry) : List Definition → Except ProfileFault Registry
  | [] => .ok r
  | d :: ds => do registerAll (r.register (← Profile.ofDefinition d)) ds

def builtin : Except ProfileFault Registry :=
  empty.registerAll Definition.builtin

end Registry

end CodeAtlas
