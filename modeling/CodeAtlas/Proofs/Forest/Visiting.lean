import CodeAtlas.Proofs.Forest.Assembly
import CodeAtlas.Proofs.Forest.Nesting
import CodeAtlas.Report.File

/-!
Visiting a forest one entity at a time.  A visit keeps the trees that are still to come on a stack; each
step takes the tree on top and pushes its children, the first one last, so the stack can grow while
the visit goes on.  Read from its top the stack is a forest, and the preorder of this forest is what
the visit has ahead of it.  With every step that gets shorter by one entity (`ahead_of_next?`), so the
visit ends and has given the whole preorder (`yields_iff`).

    stack [c, b, a]  →  preorder of [a, b, c]

The searches of a report go through the same entities.  In an assembled forest no two of them have the
same id, so the id of an owner leads back to it (`owns_iff_findById?`).
-/

namespace CodeAtlas

open Entity

structure Visit where
  stack : List Entity

namespace Visit

/-! ## Steps -/

/-- The visit of a forest before its first step, with the first tree on top. -/
def ofForest (forest : List Entity) : Visit := ⟨forest.reverse⟩

def next? (v : Visit) : Option (Entity × Visit) :=
  v.stack.getLast?.map fun e => (e, ⟨v.stack.dropLast ++ e.children.reverse⟩)

/-- Asked for the next entity until there is none, the visit gives these. -/
inductive Yields : Visit → List Entity → Prop where
  | done {v : Visit} (hend : v.next? = none) : Yields v []
  | step {v rest : Visit} {e : Entity} {es : List Entity} (hnext : v.next? = some (e, rest))
      (hrest : Yields rest es) : Yields v (e :: es)

/-- The preorder of the trees on the stack, from its top on. -/
def ahead (v : Visit) : List Entity := preorderAll v.stack.reverse

@[simp] theorem ahead_ofForest (forest : List Entity) :
    (ofForest forest).ahead = preorderAll forest := by
  rw [ofForest, ahead, List.reverse_reverse]

theorem ahead_of_end {v : Visit} (h : v.next? = none) : v.ahead = [] := by
  rw [next?, Option.map_eq_none_iff, List.getLast?_eq_none_iff] at h
  rw [ahead, h]
  rfl

theorem ahead_of_next? {v rest : Visit} {e : Entity} (h : v.next? = some (e, rest)) :
    v.ahead = e :: rest.ahead := by
  obtain ⟨top, htop, heq⟩ := Option.map_eq_some_iff.mp h
  obtain ⟨rfl, rfl⟩ := Prod.mk.inj heq
  obtain ⟨below, hstack⟩ := List.getLast?_eq_some_iff.mp htop
  have hv : v.ahead = preorderAll (top :: below.reverse) := by
    rw [ahead, hstack, List.reverse_append]
    rfl
  have hrest : (v.stack.dropLast ++ top.children.reverse).reverse =
      top.children ++ below.reverse := by
    rw [hstack, List.dropLast_concat, List.reverse_append, List.reverse_reverse]
  rw [hv, ahead, hrest, preorderAll_append, preorderAll, preorder_eq, List.cons_append]

/-! ## Whole visits -/

/-- What is ahead gets shorter with every step, so the visit ends, whatever it pushes on its way. -/
theorem yields_ahead (v : Visit) : v.Yields v.ahead := by
  generalize hahead : v.ahead = es
  induction es generalizing v with
  | nil =>
    cases hnext : v.next? with
    | none => exact .done hnext
    | some next =>
      rw [ahead_of_next? hnext] at hahead
      cases hahead
  | cons e es ih =>
    cases hnext : v.next? with
    | none =>
      rw [ahead_of_end hnext] at hahead
      cases hahead
    | some next =>
      rw [ahead_of_next? hnext] at hahead
      obtain ⟨rfl, hrest⟩ := List.cons.inj hahead
      exact .step hnext (ih next.2 hrest)

theorem Yields.eq_ahead {v : Visit} {es : List Entity} (h : v.Yields es) : es = v.ahead := by
  induction h with
  | done hend => rw [ahead_of_end hend]
  | step hnext _ ih => rw [ahead_of_next? hnext, ih]

theorem yields_iff {v : Visit} {es : List Entity} : v.Yields es ↔ es = v.ahead := by
  constructor
  · exact Yields.eq_ahead
  · rintro rfl
    exact yields_ahead v

end Visit

namespace Entity

theorem preorderAll_eq_flatMap (es : List Entity) : preorderAll es = es.flatMap preorder := by
  induction es with
  | nil => rfl
  | cons e es ih => rw [preorderAll, ih, List.flatMap_cons]

/-! ## Searches -/

/-- What a search finds: the first of some entities with a property, or nothing if none has it. -/
def IsFirst (p : Entity → Prop) (es : List Entity) : Option Entity → Prop
  | none => ∀ x ∈ es, ¬ p x
  | some e => p e ∧ ∃ before after, es = before ++ e :: after ∧ ∀ x ∈ before, ¬ p x

theorem isFirst_find? {p : Entity → Prop} {test : Entity → Bool} (h : ∀ x, test x = true ↔ p x)
    (es : List Entity) : IsFirst p es (es.find? test) := by
  cases hfound : es.find? test with
  | none =>
    intro x hx
    rw [← h]
    exact List.find?_eq_none.mp hfound x hx
  | some e =>
    obtain ⟨htest, before, after, hes, hbefore⟩ := List.find?_eq_some_iff_append.mp hfound
    refine ⟨(h e).mp htest, before, after, hes, fun x hx => ?_⟩
    rw [← h]
    simpa using hbefore x hx

theorem isFirst_byName (kind : Kind) (name : String) (forest : List Entity) :
    IsFirst (fun e => e.facts.kind = kind ∧ e.facts.name = name) (preorderAll forest)
      (find? kind name forest) := by
  rw [find?, walk_eq_preorder]
  exact isFirst_find? (fun x => by simp) _

theorem isFirst_byId (id : EntityId) (forest : List Entity) :
    IsFirst (fun e => e.facts.id = id) (preorderAll forest) (findById? id forest) := by
  rw [findById?, walk_eq_preorder]
  exact isFirst_find? (fun x => by simp) _

end Entity

namespace Forest

/-! ## Owners -/

/-- With fewer entities than there are ids, each has an id of its own. -/
theorem eq_of_id_eq {cs : List Candidate} (hsize : sizeAll (assemble cs) < 2 ^ 32) {e e' : Entity}
    (he : e ∈ walk (assemble cs)) (he' : e' ∈ walk (assemble cs)) (hid : e.facts.id = e'.facts.id) :
    e = e' := by
  rw [← length_preorderAll, ← walk_eq_preorder] at hsize
  obtain ⟨i, hi⟩ := List.mem_iff_getElem?.mp he
  obtain ⟨j, hj⟩ := List.mem_iff_getElem?.mp he'
  have hilt := (List.getElem?_eq_some_iff.mp hi).1
  have hjlt := (List.getElem?_eq_some_iff.mp hj).1
  rw [id_of_walk hi, id_of_walk hj] at hid
  obtain rfl := ofIndex_inj (by omega) (by omega) hid
  exact Option.some.inj (hi.symm.trans hj)

theorem findById?_of_mem {cs : List Candidate} (hsize : sizeAll (assemble cs) < 2 ^ 32) {e : Entity}
    (he : e ∈ walk (assemble cs)) : findById? e.facts.id (assemble cs) = some e := by
  cases hfound : findById? e.facts.id (assemble cs) with
  | none =>
    have hnone := List.find?_eq_none.mp hfound e he
    simp at hnone
  | some found =>
    have hid : found.facts.id = e.facts.id := by simpa using List.find?_some hfound
    rw [eq_of_id_eq hsize (List.mem_of_find?_eq_some hfound) he hid]

/-- An entity is the child of another exactly if the owner that it names leads there. -/
theorem owns_iff_findById? {cs : List Candidate} (hsize : sizeAll (assemble cs) < 2 ^ 32)
    (p e : Entity) :
    p ∈ walk (assemble cs) ∧ e ∈ p.children ↔ e ∈ walk (assemble cs) ∧
      e.facts.parent.bind (fun id => findById? id (assemble cs)) = some p := by
  have hparents := parentsNamed_nest (survivors cs)
  have howner : ∀ q ∈ walk (assemble cs), ∀ x ∈ q.children,
      x.facts.parent.bind (fun id => findById? id (assemble cs)) = some q := by
    intro q hq x hx
    rw [hparents.child q (by rwa [walk_eq_preorder] at hq) x hx]
    exact findById?_of_mem hsize hq
  constructor
  · rintro ⟨hp, he⟩
    refine ⟨?_, howner p hp e he⟩
    rw [walk_eq_preorder] at hp ⊢
    exact (children_sublist hp).subset he
  · rintro ⟨he, hfound⟩
    rw [walk_eq_preorder] at he
    rcases root_or_child he with hroot | ⟨q, hq, hchild⟩
    · rw [hparents.root e hroot] at hfound
      cases hfound
    · rw [← walk_eq_preorder] at hq
      obtain rfl := Option.some.inj ((howner q hq e hchild).symm.trans hfound)
      exact ⟨hq, hchild⟩

end Forest

namespace FileReport

open Forest

/-- **Visits follow the preorder.**  The visit of a tree ends and gives its preorder and nothing else:
the tree, followed by the preorders of its children.  Take any report.  The visit of its forest ends and
gives the preorders of the trees, one after the other; as many entities are counted as the forest has;
and each search finds the first one of them that fits.  If the forest was assembled and has fewer than
2^32 entities, the owner of an entity is what is found by the id that the entity names. -/
theorem visits_in_preorder (r : FileReport) :
    (∀ e : Entity, (∀ es, (Visit.ofForest [e]).Yields es ↔ es = e.preorder) ∧
      e.preorder = e :: e.children.flatMap preorder) ∧
    (∀ es, (Visit.ofForest r.entities).Yields es ↔ es = r.walk) ∧
    r.walk = r.entities.flatMap preorder ∧
    r.entityCount = sizeAll r.entities ∧
    (∀ kind name, IsFirst (fun e => e.facts.kind = kind ∧ e.facts.name = name) r.walk
      (r.find? kind name)) ∧
    (∀ id, IsFirst (fun e => e.facts.id = id) r.walk (r.findById? id)) ∧
    ∀ cs, r.entities = assemble cs → r.entityCount < 2 ^ 32 → ∀ p e,
      (p ∈ r.walk ∧ e ∈ p.children ↔ e ∈ r.walk ∧ e.facts.parent.bind r.findById? = some p) := by
  have hwalk : r.walk = preorderAll r.entities := walk_eq_preorder r.entities
  have hcount : r.entityCount = sizeAll r.entities := by
    rw [entityCount, hwalk, length_preorderAll]
  refine ⟨fun e => ⟨fun es => ?_, ?_⟩, fun es => ?_, ?_, hcount, fun kind name => ?_, fun id => ?_,
    fun cs hentities hsize p e => ?_⟩
  · rw [Visit.yields_iff, Visit.ahead_ofForest, preorderAll_eq_flatMap, List.flatMap_singleton]
  · rw [preorder_eq, preorderAll_eq_flatMap]
  · rw [Visit.yields_iff, Visit.ahead_ofForest, hwalk]
  · rw [hwalk, preorderAll_eq_flatMap]
  · rw [hwalk]
    exact isFirst_byName kind name r.entities
  · rw [hwalk]
    exact isFirst_byId id r.entities
  · have hfind : r.findById? = fun id => Entity.findById? id (assemble cs) := by
      funext id
      rw [findById?, hentities]
    rw [hcount, hentities] at hsize
    rw [walk, hentities, hfind]
    exact owns_iff_findById? hsize p e

/-- The report on a file with a structure, its two fields and a function. -/
def pointAndOrigin : FileReport :=
  { start "lib.rs" (some "rust") with state := .done, entities := assemble Forest.pointAndOrigin }

theorem visits_in_preorder_point :
    pointAndOrigin.entityCount < 2 ^ 32 ∧
    ∃ p ∈ pointAndOrigin.walk, p.facts.name = "Point" ∧
      ∃ e ∈ p.children, e.facts.name = "y" ∧
        e.facts.parent.bind pointAndOrigin.findById? = some p := by
  have hnames : pointAndOrigin.walk.map (fun e => (e.facts.name, e.children.map (·.facts.name))) =
      [("Point", ["x", "y"]), ("x", []), ("y", []), ("origin", [])] := by
    cbv
  have hcount : pointAndOrigin.entityCount = 4 := by
    simpa [entityCount] using congrArg List.length hnames
  have hsize : pointAndOrigin.entityCount < 2 ^ 32 := by
    rw [hcount]
    decide
  obtain ⟨p, hp, hpoint⟩ := List.mem_map.mp (hnames ▸ List.mem_cons_self)
  obtain ⟨hname, hfields⟩ := Prod.mk.inj hpoint
  have hy : "y" ∈ p.children.map (·.facts.name) := by
    rw [hfields]
    decide
  obtain ⟨e, he, hename⟩ := List.mem_map.mp hy
  have howner := (visits_in_preorder pointAndOrigin).2.2.2.2.2.2 Forest.pointAndOrigin rfl hsize p e
  exact ⟨hsize, p, hp, hname, e, he, hename, (howner.mp ⟨hp, he⟩).2⟩

end FileReport

end CodeAtlas
