import CodeAtlas.Proofs.Forest.Slots
import Mathlib

/-!
Assembling a forest from candidates.  Nothing is lost, repeated or moved: the entities of the forest
are the survivors, in their order, with their numbers as ids (`walk_assemble`).  There is one for
every byte range that a candidate has, and the order in which the candidates come shows only among
those that tie (`assemble_one_per_range`).
-/

namespace CodeAtlas

/-- Facts that say what a candidate says. -/
structure Candidate.SaidBy (c : Candidate) (f : Facts) : Prop where
  kind : f.kind = c.kind
  span : f.span = c.span
  name : f.name = c.name.getD ""
  declaredType : f.declaredType = c.declaredType
  returnType : f.returnType = c.returnType
  reference : f.reference =
    if c.references = [] then none else some (", ".intercalate c.references)

namespace Forest

open Entity Candidate

theorem saidBy_of_unowned {c : Candidate} {f : Facts} {id : EntityId}
    (h : f.unowned = c.facts id) : c.SaidBy f where
  kind := show f.unowned.kind = _ by rw [h]; rfl
  span := show f.unowned.span = _ by rw [h]; rfl
  name := show f.unowned.name = _ by rw [h]; rfl
  declaredType := show f.unowned.declaredType = _ by rw [h]; rfl
  returnType := show f.unowned.returnType = _ by rw [h]; rfl
  reference := by
    show f.unowned.reference = _
    rw [h]
    simp [Candidate.facts, Text.join]

theorem id_of_unowned {c : Candidate} {f : Facts} {id : EntityId}
    (h : f.unowned = c.facts id) : f.id = id := by
  show f.unowned.id = id
  rw [h]
  rfl

theorem map_unowned_walk (cs : List Candidate) :
    (walk (assemble cs)).map (fun e => e.facts.unowned) =
      (survivors cs).zipIdx.map (fun p => p.1.facts (.ofIndex p.2)) := by
  rw [walk_eq_preorder]
  exact listing_nest (survivors cs)

theorem length_walk_assemble (cs : List Candidate) :
    (walk (assemble cs)).length = (survivors cs).length := by
  have := congrArg List.length (map_unowned_walk cs)
  rwa [List.length_map, List.length_map, List.length_zipIdx] at this

/-- The entity at a position has the facts of the survivor there, and the position as its id. -/
theorem unowned_of_walk {cs : List Candidate} {i : Nat} {e : Entity} {c : Candidate}
    (he : (walk (assemble cs))[i]? = some e) (hc : (survivors cs)[i]? = some c) :
    e.facts.unowned = c.facts (.ofIndex i) := by
  have h := congrArg (fun l => l[i]?) (map_unowned_walk cs)
  simp only [List.getElem?_map, List.getElem?_zipIdx, he, hc, Option.map_some, Nat.zero_add,
    Option.some.injEq] at h
  exact h

theorem forall₂_walk (cs : List Candidate) :
    List.Forall₂ (fun (e : Entity) (c : Candidate) => c.SaidBy e.facts) (walk (assemble cs))
      (survivors cs) := by
  rw [List.forall₂_iff_get]
  refine ⟨length_walk_assemble cs, fun i hi hi' => ?_⟩
  exact saidBy_of_unowned
    (unowned_of_walk (List.getElem?_eq_getElem hi) (List.getElem?_eq_getElem hi'))

theorem id_of_walk {cs : List Candidate} {i : Nat} {e : Entity}
    (h : (walk (assemble cs))[i]? = some e) : e.facts.id = .ofIndex i := by
  have hlt : i < (survivors cs).length := by
    rw [← length_walk_assemble]
    exact (List.getElem?_eq_some_iff.mp h).1
  exact id_of_unowned (unowned_of_walk h (List.getElem?_eq_getElem hlt))

theorem exists_saidBy {cs : List Candidate} {e : Entity} (h : e ∈ walk (assemble cs)) :
    ∃ c ∈ cs, c.SaidBy e.facts := by
  obtain ⟨i, hi⟩ := List.mem_iff_getElem?.mp h
  have hlt : i < (survivors cs).length := by
    rw [← length_walk_assemble]
    exact (List.getElem?_eq_some_iff.mp hi).1
  have hc := List.getElem?_eq_getElem hlt
  exact ⟨_, mem_of_mem_survivors (List.mem_of_getElem? hc), saidBy_of_unowned (unowned_of_walk hi hc)⟩

theorem toNat_ofIndex {i : Nat} (h : i < 2 ^ 32) : (EntityId.ofIndex i).number.toNat = i := by
  show i.toUInt32.toNat = i
  rw [Nat.toUInt32_eq, UInt32.toNat_ofNat']
  exact Nat.mod_eq_of_lt h

theorem ofIndex_inj {i j : Nat} (hi : i < 2 ^ 32) (hj : j < 2 ^ 32)
    (h : EntityId.ofIndex i = .ofIndex j) : i = j := by
  rw [← toNat_ofIndex hi, h, toNat_ofIndex hj]

/-- **The forest lists the survivors.**  These are the sorted candidates without the later ones of a
byte range.  With fewer than 2^32 of them, the listing has one entity for each, in their order, with
its position as its id and with everything that the survivor says.  Trees have no owner, and every
child names the entity it belongs to.  A stack and an array of slots, emptied from the back, build
the same forest. -/
theorem walk_assemble (cs : List Candidate) (h : (survivors cs).length < 2 ^ 32) :
    survivors cs = (cs.mergeSort precedes).eraseDupsBy sameRange ∧
    (walk (assemble cs)).length = (survivors cs).length ∧
    (∀ (i : Nat) (c : Candidate), (survivors cs)[i]? = some c →
      ∃ e : Entity, (walk (assemble cs))[i]? = some e ∧
        e.facts.id.number.toNat = i ∧ c.SaidBy e.facts) ∧
    (∀ r ∈ assemble cs, r.facts.parent = none) ∧
    (∀ p ∈ walk (assemble cs), ∀ e ∈ p.children, e.facts.parent = some p.facts.id) ∧
    Slots.forest (survivors cs) = assemble cs := by
  have hparents := parentsNamed_nest (survivors cs)
  refine ⟨survivors_eq_eraseDupsBy cs, length_walk_assemble cs, fun i c hc => ?_, hparents.root,
    fun p hp => ?_, Slots.forest_eq_nest (survivors_before cs)⟩
  · have hi : i < (survivors cs).length := (List.getElem?_eq_some_iff.mp hc).1
    have hi' : i < (walk (assemble cs)).length := by rw [length_walk_assemble]; exact hi
    have he := List.getElem?_eq_getElem hi'
    have hf := unowned_of_walk he hc
    refine ⟨_, he, ?_, saidBy_of_unowned hf⟩
    rw [id_of_unowned hf, toNat_ofIndex (by omega)]
  · rw [walk_eq_preorder] at hp
    exact hparents.child p hp

/-- Two overlapping declarations with a third inside both, and a second clause for the first. -/
def overlapping : List Candidate :=
  [onFirstLine .fieldDecl 2 12 14 "x", onFirstLine .structDecl 1 10 20 "B",
    onFirstLine .functionDecl 3 0 15 "f", onFirstLine .methodDecl 0 0 15 "A"]

theorem walk_assemble_overlapping :
    (survivors overlapping).length < 2 ^ 32 ∧
    (∀ p ∈ walk (assemble overlapping), ∀ e ∈ p.children, e.facts.parent = some p.facts.id) ∧
    Slots.forest (survivors overlapping) = assemble overlapping := by
  have h : (survivors overlapping).length < 2 ^ 32 :=
    Nat.lt_of_le_of_lt (length_survivors_le overlapping) (by decide)
  obtain ⟨-, -, -, -, hchild, hslots⟩ := walk_assemble overlapping h
  exact ⟨h, hchild, hslots⟩

/-! ## One entity for each byte range -/

/-- The entities of a byte range say what the survivors of the range say. -/
theorem forall₂_filter_walk (cs : List Candidate) (c : Candidate) :
    List.Forall₂ (fun (e : Entity) (d : Candidate) => d.SaidBy e.facts)
      ((walk (assemble cs)).filter (fun e => c.span.sameRange e.facts.span))
      ((survivors cs).filter c.sameRange) := by
  refine List.rel_filter ?_ (forall₂_walk cs)
  intro e d h
  show c.span.sameRange e.facts.span = true ↔ c.span.sameRange d.span = true
  rw [h.span]

/-- **One entity for each byte range.**  The bytes of every candidate have exactly one entity, which
says what the candidate with the least clause among those with these bytes says, the earliest of
several; no entity has other bytes; and another order of the candidates gives the same forest, as
long as those that tie keep theirs. -/
theorem assemble_one_per_range (cs : List Candidate) :
    (∀ c ∈ cs, ∃ before d after e, cs = before ++ d :: after ∧ c.sameRange d = true ∧
      (∀ x ∈ before, c.sameRange x = true → d.clause < x.clause) ∧
      (∀ x ∈ after, c.sameRange x = true → d.clause ≤ x.clause) ∧
      (walk (assemble cs)).filter (fun e => c.span.sameRange e.facts.span) = [e] ∧
      d.SaidBy e.facts) ∧
    (∀ e ∈ walk (assemble cs), ∃ c ∈ cs, c.span.sameRange e.facts.span = true) ∧
    (∀ ds, Reordered cs ds → assemble cs = assemble ds) := by
  refine ⟨fun c hc => ?_, fun e he => ?_, fun ds h => ?_⟩
  · obtain ⟨before, d, after, hcs, hone, hcd, hbefore, hafter⟩ := exists_survivor hc
    have hrel := forall₂_filter_walk cs c
    rw [hone] at hrel
    obtain ⟨e, rest, he, hrest, heq⟩ := List.forall₂_cons_right_iff.mp hrel
    rw [List.forall₂_nil_right_iff.mp hrest] at heq
    exact ⟨before, d, after, e, hcs, hcd, hbefore, hafter, heq, he⟩
  · obtain ⟨i, hi⟩ := List.mem_iff_getElem?.mp he
    have hs := List.mem_of_getElem? (span_of_walk hi)
    obtain ⟨c, hc, hce⟩ := List.mem_map.mp hs
    refine ⟨c, mem_of_mem_survivors hc, ?_⟩
    rw [Span.sameRange_iff, hce]
    exact ⟨rfl, rfl⟩
  · unfold assemble
    rw [survivors_eq_of_reordered h]

theorem assemble_one_per_range_overlapping :
    Reordered overlapping overlapping.reverse ∧
    assemble overlapping = assemble overlapping.reverse ∧
    onFirstLine .functionDecl 3 0 15 "f" ∈ overlapping ∧
    ∃ e, (walk (assemble overlapping)).filter (fun e =>
      (onFirstLine .functionDecl 3 0 15 "f").span.sameRange e.facts.span) = [e] := by
  have hmem : onFirstLine .functionDecl 3 0 15 "f" ∈ overlapping := by decide
  have hreordered : Reordered overlapping overlapping.reverse :=
    reordered_of_perm (by decide) (List.reverse_perm overlapping).symm
  obtain ⟨hone, -, horder⟩ := assemble_one_per_range overlapping
  obtain ⟨-, -, -, e, -, -, -, -, he, -⟩ := hone _ hmem
  exact ⟨hreordered, horder _ hreordered, hmem, e, he⟩

end Forest

end CodeAtlas
