import CodeAtlas.Proofs.Forest.Survivors

/-!
The listing of a forest.  A forest's listing holds its trees, and for each entity the listing of its
children, in order.  `adopt` puts one candidate in front of the listing and changes nothing else of
it but the owners of the trees it adopts (`listing_adopt`, `mem_preorderAll_adopt`), so the forest
of ordered candidates lists exactly these, numbered from 0 (`listing_nest`), and names the owner of
every entity (`parentsNamed_nest`).
-/

namespace CodeAtlas

namespace Entity

/-! ## Length and members of a listing -/

mutual

theorem length_preorder (e : Entity) : e.preorder.length = e.size := by
  cases e with
  | entity f cs => rw [preorder, size, List.length_cons, length_preorderAll cs, Nat.add_comm]

theorem length_preorderAll (es : List Entity) : (preorderAll es).length = sizeAll es := by
  cases es with
  | nil => rfl
  | cons e es =>
    rw [preorderAll, sizeAll, List.length_append, length_preorder e, length_preorderAll es]

end

theorem mem_preorderAll {x : Entity} {es : List Entity} :
    x ∈ preorderAll es ↔ ∃ e ∈ es, x ∈ e.preorder := by
  induction es with
  | nil => simp [preorderAll]
  | cons e es ih => simp [preorderAll, ih]

theorem sublist_preorderAll (es : List Entity) : es.Sublist (preorderAll es) := by
  induction es with
  | nil => exact List.Sublist.refl _
  | cons e es ih =>
    rw [preorderAll, preorder_eq, List.cons_append]
    exact (ih.trans (List.sublist_append_right _ _)).cons_cons e

theorem preorderAll_children_sublist {p : Entity} {es : List Entity} (h : p ∈ preorderAll es) :
    (preorderAll p.children).Sublist (preorderAll es) := by
  rw [← walk_eq_preorder es] at h ⊢
  fun_induction walk es with
  | case1 => cases h
  | case2 e waiting ih =>
    rcases List.mem_cons.mp h with rfl | h
    · rw [walk_eq_preorder, preorderAll_append]
      exact (List.sublist_append_left _ _).cons p
    · exact (ih h).cons e

theorem children_sublist {p : Entity} {es : List Entity} (h : p ∈ preorderAll es) :
    p.children.Sublist (preorderAll es) :=
  (sublist_preorderAll p.children).trans (preorderAll_children_sublist h)

theorem root_or_child {x : Entity} {es : List Entity} (h : x ∈ preorderAll es) :
    x ∈ es ∨ ∃ p ∈ preorderAll es, x ∈ p.children := by
  rw [← walk_eq_preorder] at h ⊢
  fun_induction walk es with
  | case1 => cases h
  | case2 e waiting ih =>
    rcases List.mem_cons.mp h with rfl | h
    · exact Or.inl List.mem_cons_self
    · rcases ih h with hx | ⟨p, hp, hx⟩
      · rcases List.mem_append.mp hx with hx | hx
        · exact Or.inr ⟨e, List.mem_cons_self, hx⟩
        · exact Or.inl (List.mem_cons_of_mem _ hx)
      · exact Or.inr ⟨p, List.mem_cons_of_mem _ hp, hx⟩

end Entity

def Facts.unowned (f : Facts) : Facts := { f with parent := none }

namespace Entity

@[simp] theorem children_ownedBy (owner : EntityId) (e : Entity) :
    (e.ownedBy owner).children = e.children := by
  cases e; rfl

@[simp] theorem parent_ownedBy (owner : EntityId) (e : Entity) :
    (e.ownedBy owner).facts.parent = some owner := by
  cases e; rfl

@[simp] theorem span_ownedBy (owner : EntityId) (e : Entity) :
    (e.ownedBy owner).facts.span = e.facts.span := by
  cases e; rfl

theorem unowned_ownedBy (owner : EntityId) (e : Entity) :
    (e.ownedBy owner).facts.unowned = e.facts.unowned := by
  cases e; rfl

def listing (es : List Entity) : List Facts :=
  (preorderAll es).map (fun e => e.facts.unowned)

theorem listing_cons (e : Entity) (es : List Entity) :
    listing (e :: es) = e.facts.unowned :: listing (e.children ++ es) := by
  simp [listing, preorderAll, preorder_eq, preorderAll_append]

theorem listing_append (es fs : List Entity) : listing (es ++ fs) = listing es ++ listing fs := by
  simp [listing, preorderAll_append]

theorem listing_map_ownedBy (owner : EntityId) (es : List Entity) :
    listing (es.map (ownedBy owner)) = listing es := by
  induction es with
  | nil => rfl
  | cons e es ih =>
    rw [List.map_cons, listing_cons, listing_cons, listing_append, listing_append, ih,
      children_ownedBy, unowned_ownedBy]

/-- Taking over trees leaves every entity its children and its facts but the owner. -/
theorem mem_preorderAll_ownedBy {owner : EntityId} {x : Entity} {es : List Entity}
    (h : x ∈ preorderAll (es.map (ownedBy owner))) :
    ∃ y ∈ preorderAll es, x.children = y.children ∧ x.facts.unowned = y.facts.unowned := by
  obtain ⟨e', he', hx⟩ := mem_preorderAll.mp h
  obtain ⟨e, he, rfl⟩ := List.mem_map.mp he'
  rw [preorder_eq, children_ownedBy] at hx
  rcases List.mem_cons.mp hx with rfl | hx
  · exact ⟨e, (sublist_preorderAll es).subset he, children_ownedBy owner e, unowned_ownedBy owner e⟩
  · refine ⟨x, mem_preorderAll.mpr ⟨e, he, ?_⟩, rfl, rfl⟩
    rw [preorder_eq]
    exact List.mem_cons_of_mem _ hx

/-- Trees have no owner, and every child names the entity it belongs to. -/
structure ParentsNamed (es : List Entity) : Prop where
  root : ∀ r ∈ es, r.facts.parent = none
  child : ∀ p ∈ preorderAll es, ∀ e ∈ p.children, e.facts.parent = some p.facts.id

end Entity

namespace Forest

open Entity

/-! ## One candidate -/

theorem unowned_facts (c : Candidate) (id : EntityId) : (c.facts id).unowned = c.facts id := rfl

theorem listing_adopt (c : Candidate × Nat) (following : List Entity) :
    listing (adopt c following) = c.1.facts (.ofIndex c.2) :: listing following := by
  conv =>
    rhs
    rw [← List.takeWhile_append_dropWhile (p := fun e : Entity => c.1.span.contains e.facts.span)
      (l := following), listing_append]
  rw [adopt, listing_cons, listing_append]
  simp only [children, facts]
  rw [listing_map_ownedBy, unowned_facts]

/-- An entity of the new forest is the candidate with the trees it adopts, or has the children and
facts of an entity of the old one. -/
theorem mem_preorderAll_adopt {c : Candidate × Nat} {following : List Entity} {x : Entity}
    (h : x ∈ preorderAll (adopt c following)) :
    (x.facts = c.1.facts (.ofIndex c.2) ∧ x.children =
      (following.takeWhile (fun e => c.1.span.contains e.facts.span)).map
        (ownedBy (.ofIndex c.2))) ∨
    ∃ y ∈ preorderAll following, x.children = y.children ∧ x.facts.unowned = y.facts.unowned := by
  have hsplit := List.takeWhile_append_dropWhile
    (p := fun e : Entity => c.1.span.contains e.facts.span) (l := following)
  rw [adopt, preorderAll, preorder, List.cons_append] at h
  rcases List.mem_cons.mp h with rfl | h
  · exact Or.inl ⟨rfl, rfl⟩
  · right
    rcases List.mem_append.mp h with h | h
    · obtain ⟨y, hy, hyx⟩ := mem_preorderAll_ownedBy h
      refine ⟨y, ?_, hyx⟩
      rw [← hsplit, preorderAll_append]
      exact List.mem_append_left _ hy
    · refine ⟨x, ?_, rfl, rfl⟩
      rw [← hsplit, preorderAll_append]
      exact List.mem_append_right _ h

/-- A tree of the new forest is the candidate or one of the trees it does not adopt. -/
theorem mem_adopt {c : Candidate × Nat} {following : List Entity} {r : Entity}
    (h : r ∈ adopt c following) :
    r.facts = c.1.facts (.ofIndex c.2) ∨
      r ∈ following.dropWhile (fun e => c.1.span.contains e.facts.span) := by
  rcases List.mem_cons.mp h with rfl | h
  · exact Or.inl rfl
  · exact Or.inr h

theorem parentsNamed_adopt {c : Candidate × Nat} {following : List Entity}
    (h : ParentsNamed following) : ParentsNamed (adopt c following) where
  root := by
    intro r hr
    rcases mem_adopt hr with hf | hr
    · rw [hf]; rfl
    · exact h.root r ((List.dropWhile_sublist _).subset hr)
  child := by
    intro p hp e he
    rcases mem_preorderAll_adopt hp with ⟨hf, hch⟩ | ⟨y, hy, hch, hf⟩
    · rw [hch] at he
      obtain ⟨e', -, rfl⟩ := List.mem_map.mp he
      rw [parent_ownedBy, hf]
      rfl
    · rw [hch] at he
      have hid : p.facts.unowned.id = y.facts.unowned.id := by rw [hf]
      rw [show p.facts.id = y.facts.id from hid]
      exact h.child y hy e he

/-! ## All candidates -/

theorem listing_foldr_adopt (ps : List (Candidate × Nat)) :
    listing (ps.foldr adopt []) = ps.map (fun p => p.1.facts (.ofIndex p.2)) := by
  induction ps with
  | nil => rfl
  | cons p ps ih => rw [List.foldr_cons, listing_adopt, ih, List.map_cons]

theorem listing_nest (ordered : List Candidate) :
    listing (nest ordered) = ordered.zipIdx.map (fun p => p.1.facts (.ofIndex p.2)) :=
  listing_foldr_adopt ordered.zipIdx

theorem parentsNamed_nest (ordered : List Candidate) : ParentsNamed (nest ordered) := by
  unfold nest
  induction ordered.zipIdx with
  | nil => exact ⟨by simp, by simp [preorderAll]⟩
  | cons p ps ih => exact parentsNamed_adopt ih

end Forest

end CodeAtlas
