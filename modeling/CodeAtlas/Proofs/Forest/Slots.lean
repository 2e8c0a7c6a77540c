import CodeAtlas.Proofs.Forest.Nesting
import Mathlib.Data.List.Sort

/-!
The same forest in one pass over the candidates and one pass back.  On the way, every candidate gets
a slot and a stack holds the slots still open, the innermost on top: those that do not hold the next
candidate are closed for good, and what is left on top owns it.  On the way back every slot becomes
an entity, with the entities of its children taken out of the array of entities built so far.

The stack is right because a closed slot is never missed: some open slot after it ends later (`Open`).
So the slots know owner and children of every candidate (`placed_ofCandidates`), every child is
there when it is taken (`exists_rooted`), and

    ordered candidates → Slots.forest ordered = Forest.nest ordered            (forest_eq_nest)
-/

namespace CodeAtlas

/-- A candidate with the positions of its owner and its children. -/
structure Slot where
  candidate : Candidate
  owner : Option Nat
  children : List Nat
deriving Repr, Inhabited

/-- The slots so far and the open ones, the innermost first. -/
structure Slots where
  slots : List Slot
  stack : List Nat
deriving Repr, Inhabited

namespace Slots

open Entity Forest

def holds (t : Slots) (c : Candidate) (i : Nat) : Bool :=
  (t.slots[i]?).any (fun s => s.candidate.span.contains c.span)

def openFor (t : Slots) (c : Candidate) : List Nat :=
  t.stack.dropWhile (fun i => !t.holds c i)

def withChild (slots : List Slot) (child : Nat) : Option Nat → List Slot
  | none => slots
  | some owner => slots.modify owner (fun s => { s with children := s.children ++ [child] })

def place (t : Slots) (c : Candidate) : Slots where
  slots := withChild t.slots t.slots.length (t.openFor c).head? ++ [⟨c, (t.openFor c).head?, []⟩]
  stack := t.slots.length :: t.openFor c

def ofCandidates (ordered : List Candidate) : Slots :=
  ordered.foldl place ⟨[], []⟩

/-- Takes entities out of an array, as far as they are there. -/
def takeAll (built : List (Option Entity)) : List Nat → List Entity × List (Option Entity)
  | [] => ([], built)
  | i :: is =>
    let rest := takeAll (built.set i none) is
    (built[i]?.join.toList ++ rest.1, rest.2)

def build (s : Slot × Nat) (built : List (Option Entity)) : List (Option Entity) :=
  let taken := takeAll built s.1.children
  taken.2.set s.2 (some (.entity
    { s.1.candidate.facts (.ofIndex s.2) with parent := s.1.owner.map .ofIndex } taken.1))

/-- The entities of the slots without an owner, built from the last slot to the first. -/
def forest (ordered : List Candidate) : List Entity :=
  let slots := (ofCandidates ordered).slots
  let built := slots.zipIdx.foldr build (List.replicate slots.length none)
  (takeAll built ((slots.zipIdx.filter (fun s => s.1.owner.isNone)).map (fun s => s.2))).1

/-! ## The stack -/

theorem encloses_append {spans : List Span} (s : Span) {j i : Nat} (hi : i < spans.length)
    (hj : j < spans.length) : Encloses (spans ++ [s]) j i ↔ Encloses spans j i := by
  unfold Encloses
  rw [List.getElem?_append_left hi, List.getElem?_append_left hj]

theorem innermost_append {spans : List Span} (s : Span) {j i : Nat} (hi : i < spans.length) :
    Innermost (spans ++ [s]) j i ↔ Innermost spans j i := by
  constructor
  · intro h
    have hj := h.before
    refine ⟨h.before, (encloses_append s hi (by omega)).mp h.encloses, fun k hk hke => ?_⟩
    exact h.latest k hk ((encloses_append s hi (by omega)).mpr hke)
  · intro h
    have hj := h.before
    refine ⟨h.before, (encloses_append s hi (by omega)).mpr h.encloses, fun k hk hke => ?_⟩
    exact h.latest k hk ((encloses_append s hi (by omega)).mp hke)

/-- Open positions go down, and every closed one has an open one after it that ends later. -/
structure Open (spans : List Span) (stack : List Nat) : Prop where
  decreasing : stack.Pairwise (fun i j => j < i)
  bound : ∀ i ∈ stack, i < spans.length
  outlived : ∀ k s, spans[k]? = some s → k ∉ stack →
    ∃ m ∈ stack, ∃ t, spans[m]? = some t ∧ k < m ∧ s.endByte < t.endByte

def around (spans : List Span) (s : Span) (i : Nat) : Bool :=
  (spans[i]?).any (fun t => t.contains s)

theorem around_iff {spans : List Span} {s : Span} {i : Nat} :
    around spans s i = true ↔ Encloses (spans ++ [s]) i spans.length ∧ i < spans.length := by
  unfold around Encloses
  constructor
  · intro h
    obtain ⟨t, ht, hc⟩ := (Option.any_eq_true ..).mp h
    have hi := (List.getElem?_eq_some_iff.mp ht).1
    exact ⟨⟨t, s, by rw [List.getElem?_append_left hi]; exact ht, by simp, hc⟩, hi⟩
  · rintro ⟨⟨t, u, ht, hu, hc⟩, hi⟩
    rw [List.getElem?_append_left hi] at ht
    simp only [List.getElem?_append_right (Nat.le_refl _), Nat.sub_self,
      List.getElem?_cons_zero, Option.some.injEq] at hu
    subst hu
    exact (Option.any_eq_true ..).mpr ⟨t, ht, hc⟩

/-- Of two positions before `s`, the one that ends later is around `s` if the other is. -/
theorem around_of_outlived {spans : List Span} {s t u : Span} {k m : Nat}
    (hs : ∀ t ∈ spans, t.Before s) (hk : spans[k]? = some t) (hm : spans[m]? = some u)
    (hlt : t.endByte < u.endByte) (h : around spans s k = true) : around spans s m = true := by
  unfold around at *
  rw [hk, Option.any_some, (hs t (List.mem_of_getElem? hk)).contains_iff] at h
  rw [hm, Option.any_some, (hs u (List.mem_of_getElem? hm)).contains_iff]
  omega

/-- What is around the next span has an open position around it, no earlier. -/
theorem Open.exists_open {spans : List Span} {stack : List Nat} (h : Open spans stack) {s : Span}
    (hs : ∀ t ∈ spans, t.Before s) {k : Nat} (hk : around spans s k = true) :
    ∃ m ∈ stack.dropWhile (fun i => !around spans s i), k ≤ m := by
  by_cases hmem : k ∈ stack
  · exact ⟨k, mem_dropWhile_of_not hmem (by rw [hk]; rfl), Nat.le_refl k⟩
  · obtain ⟨t, ht, -⟩ := (Option.any_eq_true ..).mp hk
    obtain ⟨m, hm, u, hu, hlt, hend⟩ := h.outlived k t ht hmem
    have ham := around_of_outlived hs ht hu hend hk
    exact ⟨m, mem_dropWhile_of_not hm (by rw [ham]; rfl), Nat.le_of_lt hlt⟩

/-- The top of what stays open is the innermost position around the next span. -/
theorem Open.head?_iff {spans : List Span} {stack : List Nat} (h : Open spans stack) {s : Span}
    (hs : ∀ t ∈ spans, t.Before s) (j : Nat) :
    (stack.dropWhile (fun i => !around spans s i)).head? = some j ↔
      Innermost (spans ++ [s]) j spans.length := by
  have hlater : ∀ k, k < spans.length → Encloses (spans ++ [s]) k spans.length →
      ∃ m ∈ stack.dropWhile (fun i => !around spans s i), k ≤ m :=
    fun k hk hke => h.exists_open hs (around_iff.mpr ⟨hke, hk⟩)
  have hdec := h.decreasing.sublist (List.dropWhile_sublist (fun i => !around spans s i))
  have hhead := List.head?_dropWhile_not (fun i => !around spans s i) stack
  cases hrest : stack.dropWhile (fun i => !around spans s i) with
  | nil =>
    rw [hrest] at hlater
    constructor
    · intro he
      cases he
    · intro hin
      obtain ⟨m, hm, -⟩ := hlater j hin.before hin.encloses
      cases hm
  | cons i rest =>
    rw [hrest] at hlater hdec hhead
    simp only [List.head?_cons, Bool.not_eq_false'] at hhead
    obtain ⟨hei, hi⟩ := around_iff.mp hhead
    have hin : Innermost (spans ++ [s]) i spans.length := by
      refine ⟨hi, hei, fun k hk hke => ?_⟩
      -- something open comes no earlier than `k`, and `i` is the latest of what is open
      obtain ⟨m, hm, hkm⟩ := hlater k hk hke
      rcases List.mem_cons.mp hm with rfl | hm
      · exact hkm
      · have := (List.pairwise_cons.mp hdec).1 m hm
        omega
    rw [List.head?_cons]
    constructor
    · intro he
      cases he
      exact hin
    · intro hj
      rw [hin.unique hj]

theorem Open.push {spans : List Span} {stack : List Nat} (h : Open spans stack) {s : Span}
    (hs : ∀ t ∈ spans, t.Before s) :
    Open (spans ++ [s]) (spans.length :: stack.dropWhile (fun i => !around spans s i)) := by
  have hsub := List.dropWhile_sublist (l := stack) (fun i => !around spans s i)
  -- what is closed now ends before `s` ends
  have hclosed : ∀ m t, spans[m]? = some t → m ∈ stack →
      m ∉ stack.dropWhile (fun i => !around spans s i) → t.endByte < s.endByte := by
    intro m t ht hm hnot
    have hfalse : ¬ around spans s m = true := by
      intro hp
      exact hnot (mem_dropWhile_of_not hm (by rw [hp]; rfl))
    unfold around at hfalse
    rw [ht, Option.any_some, (hs t (List.mem_of_getElem? ht)).contains_iff] at hfalse
    omega
  have hlast : (spans ++ [s])[spans.length]? = some s := by simp
  refine ⟨List.pairwise_cons.mpr ⟨fun i hi => h.bound i (hsub.subset hi), h.decreasing.sublist hsub⟩,
    ?_, ?_⟩
  · intro i hi
    rw [List.length_append]
    rcases List.mem_cons.mp hi with rfl | hi
    · exact Nat.lt_succ_self _
    · exact Nat.lt_succ_of_lt (h.bound i (hsub.subset hi))
  · intro k t ht hk
    obtain ⟨hkn, hkrest⟩ := not_or.mp (fun hor => hk (List.mem_cons.mpr hor))
    have hlt : k < spans.length := by
      have := (List.getElem?_eq_some_iff.mp ht).1
      rw [List.length_append, List.length_singleton] at this
      omega
    rw [List.getElem?_append_left hlt] at ht
    by_cases hmem : k ∈ stack
    · exact ⟨_, List.mem_cons_self, s, hlast, hlt, hclosed k t ht hmem hkrest⟩
    · obtain ⟨m, hm, u, hu, hkm, hend⟩ := h.outlived k t ht hmem
      by_cases hmrest : m ∈ stack.dropWhile (fun i => !around spans s i)
      · refine ⟨m, List.mem_cons_of_mem _ hmrest, u, ?_, hkm, hend⟩
        rw [List.getElem?_append_left (h.bound m hm)]
        exact hu
      · have := hclosed m u hu hm hmrest
        exact ⟨_, List.mem_cons_self, s, hlast, hlt, by omega⟩

/-! ## The slots -/

theorem getElem?_withChild (slots : List Slot) (child : Nat) (owner : Option Nat) (i : Nat) :
    (withChild slots child owner)[i]? =
      if owner = some i then
        (slots[i]?).map (fun s => { s with children := s.children ++ [child] })
      else slots[i]? := by
  cases owner with
  | none => rfl
  | some o =>
    unfold withChild
    by_cases hoi : o = i
    · rw [if_pos (by rw [hoi]), hoi, List.getElem?_modify_eq]
      rfl
    · rw [if_neg (fun h => hoi (Option.some.inj h)), List.getElem?_modify_ne _ _ hoi]

theorem length_withChild (slots : List Slot) (child : Nat) (owner : Option Nat) :
    (withChild slots child owner).length = slots.length := by
  cases owner with
  | none => rfl
  | some o => exact List.length_modify _ _ _

theorem map_candidate_withChild (slots : List Slot) (child : Nat) (owner : Option Nat) :
    (withChild slots child owner).map (fun s => s.candidate) =
      slots.map (fun s => s.candidate) := by
  apply List.ext_getElem?
  intro i
  rw [List.getElem?_map, List.getElem?_map, getElem?_withChild]
  split
  · cases slots[i]? <;> rfl
  · rfl

/-- A slot that knows its owner and its children. -/
structure Right (spans : List Span) (i : Nat) (s : Slot) : Prop where
  owner : ∀ j, s.owner = some j ↔ Innermost spans j i
  increasing : s.children.Pairwise (fun a b => a < b)
  children : ∀ k, k ∈ s.children ↔ Innermost spans i k

theorem Right.owner_eq_none_iff {spans : List Span} {i : Nat} {s : Slot} (h : Right spans i s) :
    s.owner = none ↔ ∀ k, k < i → ¬ Encloses spans k i := by
  rw [Option.eq_none_iff_forall_ne_some]
  constructor
  · intro hnone k hk hke
    obtain ⟨j, hj⟩ := exists_innermost hk hke
    exact hnone j ((h.owner j).mpr hj)
  · intro hnone j hj
    have hin := (h.owner j).mp hj
    exact hnone j hin.before hin.encloses

/-- The slots of candidates, all of them right. -/
structure Placed (ordered : List Candidate) (t : Slots) : Prop where
  candidates : t.slots.map (fun s => s.candidate) = ordered
  right : ∀ i s, t.slots[i]? = some s → Right (ordered.map (fun c => c.span)) i s
  stack : Open (ordered.map (fun c => c.span)) t.stack

theorem Placed.length_eq {ordered : List Candidate} {t : Slots} (h : Placed ordered t) :
    t.slots.length = ordered.length := by
  rw [← h.candidates, List.length_map]

theorem Placed.openFor_eq {ordered : List Candidate} {t : Slots} (h : Placed ordered t)
    (c : Candidate) : t.openFor c =
      t.stack.dropWhile (fun i => !around (ordered.map (fun c => c.span)) c.span i) := by
  unfold openFor
  congr 1
  funext i
  unfold holds around
  rw [← h.candidates, List.map_map, List.getElem?_map]
  cases t.slots[i]? <;> rfl

/-- A slot stays right when the next span comes, if it takes the new position as a child exactly
when it is its owner. -/
theorem Right.append {spans : List Span} {i : Nat} {s : Slot} (h : Right spans i s)
    (hi : i < spans.length) (u : Span) {owner : Option Nat}
    (howner : ∀ j, owner = some j ↔ Innermost (spans ++ [u]) j spans.length) :
    Right (spans ++ [u]) i (if owner = some i then
      { s with children := s.children ++ [spans.length] } else s) := by
  have hold : ∀ k, k < spans.length → (Innermost (spans ++ [u]) i k ↔ k ∈ s.children) :=
    fun k hk => (innermost_append u hk).trans (h.children k).symm
  have hbound : ∀ k ∈ s.children, k < spans.length :=
    fun k hk => ((h.children k).mp hk).lt_length
  have hnew : ∀ k, Innermost (spans ++ [u]) i k → k < spans.length ∨ k = spans.length := by
    intro k hk
    have := hk.lt_length
    rw [List.length_append, List.length_singleton] at this
    omega
  split
  · next ho =>
    refine ⟨fun j => (h.owner j).trans (innermost_append u hi).symm, ?_, fun k => ?_⟩
    · refine List.pairwise_append.mpr ⟨h.increasing, List.pairwise_singleton _ _, ?_⟩
      intro a ha b hb
      rw [List.mem_singleton.mp hb]
      exact hbound a ha
    · rw [List.mem_append, List.mem_singleton]
      constructor
      · rintro (hk | rfl)
        · exact (hold k (hbound k hk)).mpr hk
        · exact (howner i).mp ho
      · intro hk
        rcases hnew k hk with hlt | heq
        · exact Or.inl ((hold k hlt).mp hk)
        · exact Or.inr heq
  · next ho =>
    refine ⟨fun j => (h.owner j).trans (innermost_append u hi).symm, h.increasing, fun k => ?_⟩
    constructor
    · intro hk
      exact (hold k (hbound k hk)).mpr hk
    · intro hk
      rcases hnew k hk with hlt | rfl
      · exact (hold k hlt).mp hk
      · exact absurd ((howner i).mpr hk) ho

theorem right_append_singleton {spans : List Span} {u : Span} (c : Candidate) {owner : Option Nat}
    (howner : ∀ j, owner = some j ↔ Innermost (spans ++ [u]) j spans.length) :
    Right (spans ++ [u]) spans.length ⟨c, owner, []⟩ := by
  refine ⟨howner, List.Pairwise.nil, fun k => ?_⟩
  constructor
  · intro hk
    cases hk
  · intro hk
    have hlt := hk.before
    have hlen := hk.lt_length
    rw [List.length_append, List.length_singleton] at hlen
    omega

theorem Placed.place {ordered : List Candidate} {t : Slots} (h : Placed ordered t)
    {c : Candidate} (hc : ∀ x ∈ ordered, x.span.Before c.span) :
    Placed (ordered ++ [c]) (t.place c) := by
  have hlen : t.slots.length = (ordered.map (fun c => c.span)).length := by
    rw [h.length_eq, List.length_map]
  have hs : ∀ s ∈ ordered.map (fun c => c.span), s.Before c.span := by
    intro s hs
    obtain ⟨x, hx, rfl⟩ := List.mem_map.mp hs
    exact hc x hx
  have hspans : (ordered ++ [c]).map (fun c => c.span) =
      ordered.map (fun c => c.span) ++ [c.span] := by simp
  have howner := h.stack.head?_iff hs
  rw [← h.openFor_eq c] at howner
  refine ⟨?_, fun i s hi => ?_, ?_⟩
  · show (withChild _ _ _ ++ [_]).map _ = _
    rw [List.map_append, map_candidate_withChild, h.candidates]
    rfl
  · rw [hspans]
    change (withChild t.slots t.slots.length (t.openFor c).head? ++ _)[i]? = some s at hi
    -- an earlier slot takes the new position as a child exactly if it is the owner
    by_cases hlt : i < t.slots.length
    · rw [List.getElem?_append_left (by rw [length_withChild]; exact hlt), getElem?_withChild] at hi
      obtain ⟨s', hs'⟩ : ∃ s', t.slots[i]? = some s' := ⟨_, List.getElem?_eq_getElem hlt⟩
      have hright := (h.right i s' hs').append (by omega) c.span howner
      rw [hs', hlen] at hi
      split at hright
      · next ho =>
        rw [if_pos ho] at hi
        cases hi
        exact hright
      · next ho =>
        rw [if_neg ho] at hi
        cases hi
        exact hright
    · have hi' := (List.getElem?_eq_some_iff.mp hi).1
      rw [List.length_append, length_withChild, List.length_singleton] at hi'
      have heq : i = t.slots.length := by omega
      rw [List.getElem?_append_right (by rw [length_withChild]; omega), length_withChild, heq,
        Nat.sub_self] at hi
      cases hi
      rw [heq, hlen]
      exact right_append_singleton c howner
  · rw [hspans]
    show Open _ (t.slots.length :: t.openFor c)
    rw [hlen, h.openFor_eq c]
    exact h.stack.push hs

theorem placed_foldl {past : List Candidate} {t : Slots} (h : Placed past t)
    (ordered : List Candidate)
    (hb : (past ++ ordered).Pairwise (fun a b => a.span.Before b.span)) :
    Placed (past ++ ordered) (ordered.foldl Slots.place t) := by
  induction ordered generalizing past t with
  | nil => rwa [List.append_nil]
  | cons c ordered ih =>
    have hc : ∀ x ∈ past, x.span.Before c.span :=
      fun x hx => (List.pairwise_append.mp hb).2.2 x hx c List.mem_cons_self
    rw [List.append_cons] at hb ⊢
    exact ih (h.place hc) hb

theorem placed_ofCandidates {ordered : List Candidate}
    (hb : ordered.Pairwise (fun a b => a.span.Before b.span)) :
    Placed ordered (ofCandidates ordered) := by
  have hnil : Placed [] ⟨[], []⟩ := by
    refine ⟨rfl, fun i s hi => ?_, ⟨List.Pairwise.nil, by simp, by simp⟩⟩
    cases hi
  exact placed_foldl hnil ordered hb

/-! ## The way back -/

theorem length_takeAll (built : List (Option Entity)) (is : List Nat) :
    (takeAll built is).2.length = built.length := by
  induction is generalizing built with
  | nil => rfl
  | cons i is ih => rw [takeAll, ih, List.length_set]

theorem getElem?_takeAll (built : List (Option Entity)) {is : List Nat} {j : Nat} (h : j ∉ is) :
    (takeAll built is).2[j]? = built[j]? := by
  induction is generalizing built with
  | nil => rfl
  | cons i is ih =>
    have hj := not_or.mp (fun hor => h (List.mem_cons.mpr hor))
    rw [takeAll, ih _ hj.2, List.getElem?_set_ne (fun he => hj.1 he.symm)]

theorem takeAll_fst {built : List (Option Entity)} {es : List (Nat × Entity)}
    (f : Nat × Entity → Entity) (hd : (es.map (fun x => x.1)).Nodup)
    (h : ∀ x ∈ es, built[x.1]? = some (some (f x))) :
    (takeAll built (es.map (fun x => x.1))).1 = es.map f := by
  induction es generalizing built with
  | nil => rfl
  | cons x es ih =>
    have hd' := List.nodup_cons.mp hd
    have hrest : ∀ y ∈ es, (built.set x.1 none)[y.1]? = some (some (f y)) := by
      intro y hy
      have hne : x.1 ≠ y.1 := fun he => hd'.1 (List.mem_map.mpr ⟨y, hy, he.symm⟩)
      rw [List.getElem?_set_ne hne]
      exact h y (List.mem_cons_of_mem _ hy)
    rw [List.map_cons, List.map_cons, takeAll, ih hd'.2 hrest, h x List.mem_cons_self]
    rfl

/-- The trees of the candidates from position `m` on, with their positions: what lies in none of
these candidates before it. -/
structure Rooted (spans : List Span) (m : Nat) (es : List (Nat × Entity)) : Prop where
  increasing : es.Pairwise (fun x y => x.1 < y.1)
  span : ∀ x ∈ es, spans[x.1]? = some x.2.facts.span
  root : ∀ i, i ∈ es.map (fun x => x.1) ↔
    m ≤ i ∧ i < spans.length ∧ ∀ k, m ≤ k → k < i → ¬ Encloses spans k i

theorem Rooted.nodup {spans : List Span} {m : Nat} {es : List (Nat × Entity)}
    (h : Rooted spans m es) : (es.map (fun x => x.1)).Nodup :=
  List.pairwise_map.mpr (h.increasing.imp Nat.ne_of_lt)

theorem Rooted.of_mem {spans : List Span} {m : Nat} {es : List (Nat × Entity)}
    (h : Rooted spans m es) {x : Nat × Entity} (hx : x ∈ es) :
    m ≤ x.1 ∧ ∀ k, m ≤ k → k < x.1 → ¬ Encloses spans k x.1 := by
  obtain ⟨hle, -, hnone⟩ := (h.root x.1).mp (List.mem_map.mpr ⟨x, hx, rfl⟩)
  exact ⟨hle, hnone⟩

section

variable {spans : List Span} {m : Nat} {es : List (Nat × Entity)} {s : Span}

/-- The trees that the candidate at `m` does not hold are those after the leading ones. -/
theorem Rooted.not_held (h : Rooted spans (m + 1) es) (hb : spans.Pairwise Span.Before)
    (hm : spans[m]? = some s) {x : Nat × Entity}
    (hx : x ∈ es.dropWhile (fun x => s.contains x.2.facts.span)) :
    ¬ s.contains x.2.facts.span = true := by
  have hlt : ∀ y ∈ es, m < y.1 := fun y hy => (h.of_mem hy).1
  refine not_of_mem_dropWhile h.increasing ?_ hx
  intro a ha b hb' hab hsb
  have hsa := before_of_lt hb hm (h.span a ha) (hlt a ha)
  rw [(before_of_lt hb hm (h.span b hb') (hlt b hb')).contains_iff] at hsb
  rw [hsa.contains_iff]
  have hout := (h.of_mem hb').2 a.1 (hlt a ha) hab
  have hnot : ¬ a.2.facts.span.contains b.2.facts.span = true :=
    fun hc => hout ⟨_, _, h.span a ha, h.span b hb', hc⟩
  rw [(before_of_lt hb (h.span a ha) (h.span b hb') hab).contains_iff] at hnot
  omega

theorem encloses_iff {x : Nat × Entity} (hm : spans[m]? = some s)
    (hx : spans[x.1]? = some x.2.facts.span) :
    Encloses spans m x.1 ↔ s.contains x.2.facts.span = true := by
  constructor
  · rintro ⟨s', t, hs, ht, hc⟩
    rw [hm] at hs
    rw [hx] at ht
    cases hs
    cases ht
    exact hc
  · intro hc
    exact ⟨s, _, hm, hx, hc⟩

/-- One candidate more: it is a tree itself, and the trees that it holds are trees no longer. -/
theorem Rooted.cons (h : Rooted spans (m + 1) es) (hb : spans.Pairwise Span.Before)
    (hm : spans[m]? = some s) {e : Entity} (he : e.facts.span = s) :
    Rooted spans m ((m, e) :: es.dropWhile (fun x => s.contains x.2.facts.span)) := by
  have hsub := List.dropWhile_sublist (l := es) (fun x => s.contains x.2.facts.span)
  have hlt : ∀ y ∈ es, m < y.1 := fun y hy => (h.of_mem hy).1
  have hmlen : m < spans.length := (List.getElem?_eq_some_iff.mp hm).1
  refine ⟨List.pairwise_cons.mpr ⟨fun y hy => hlt y (hsub.subset hy), h.increasing.sublist hsub⟩,
    fun x hx => ?_, fun i => ?_⟩
  · rcases List.mem_cons.mp hx with rfl | hx
    · rw [he]
      exact hm
    · exact h.span x (hsub.subset hx)
  · rw [List.map_cons, List.mem_cons]
    constructor
    · rintro (rfl | hi)
      · exact ⟨Nat.le_refl _, hmlen, fun k hk hki => by omega⟩
      · -- what stays behind the new tree is held by it as little as by the others
        obtain ⟨x, hx, rfl⟩ := List.mem_map.mp hi
        have hxes := hsub.subset hx
        obtain ⟨hle, hlen, hnone⟩ := (h.root x.1).mp (List.mem_map.mpr ⟨x, hxes, rfl⟩)
        refine ⟨by omega, hlen, fun k hk hki hke => ?_⟩
        rcases Nat.lt_or_eq_of_le hk with hk | rfl
        · exact hnone k hk hki hke
        · exact h.not_held hb hm hx ((encloses_iff hm (h.span x hxes)).mp hke)
    · rintro ⟨hle, hlen, hnone⟩
      rcases Nat.lt_or_eq_of_le hle with hlt' | rfl
      · right
        have hi := (h.root i).mpr ⟨hlt', hlen, fun k hk hki => hnone k (by omega) hki⟩
        obtain ⟨x, hx, rfl⟩ := List.mem_map.mp hi
        have hout : s.contains x.2.facts.span = false := by
          rw [← Bool.not_eq_true, ← encloses_iff hm (h.span x hx)]
          exact hnone m (Nat.le_refl m) hlt'
        exact List.mem_map.mpr ⟨x, mem_dropWhile_of_not hx hout, rfl⟩
      · exact Or.inl rfl

/-- The children of the slot at `m` are the positions of the trees that its candidate holds. -/
theorem Rooted.children_eq (h : Rooted spans (m + 1) es) (hb : spans.Pairwise Span.Before)
    (hm : spans[m]? = some s) {slot : Slot} (hslot : Right spans m slot) :
    slot.children =
      (es.takeWhile (fun x => s.contains x.2.facts.span)).map (fun x => x.1) := by
  have hsub := List.takeWhile_sublist (l := es) (fun x => s.contains x.2.facts.span)
  refine hslot.increasing.eq_of_mem_iff
    (List.pairwise_map.mpr (h.increasing.sublist hsub)) fun i => ?_
  rw [hslot.children]
  constructor
  · intro hin
    have hi := (h.root i).mpr ⟨hin.before, hin.lt_length, fun k hk hki hke => by
      have := hin.latest k hki hke
      omega⟩
    obtain ⟨x, hx, rfl⟩ := List.mem_map.mp hi
    have hc := (encloses_iff hm (h.span x hx)).mp hin.encloses
    rw [← List.takeWhile_append_dropWhile (p := fun y : Nat × Entity => s.contains y.2.facts.span)
      (l := es)] at hx
    rcases List.mem_append.mp hx with hx | hx
    · exact List.mem_map.mpr ⟨x, hx, rfl⟩
    · exact absurd hc (h.not_held hb hm hx)
  · intro hi
    obtain ⟨x, hx, rfl⟩ := List.mem_map.mp hi
    have hxes := hsub.subset hx
    have hc : s.contains x.2.facts.span = true := List.all_eq_true.mp List.all_takeWhile x hx
    obtain ⟨hle, hnone⟩ := h.of_mem hxes
    refine ⟨hle, (encloses_iff hm (h.span x hxes)).mpr hc, fun k hk hke => ?_⟩
    by_contra hlt
    exact hnone k (by omega) hk hke

end

def withOwner (owner : Option Nat) (e : Entity) : Entity :=
  match owner with
  | none => e
  | some j => e.ownedBy (.ofIndex j)

theorem entity_eq_withOwner (c : Candidate) (i : Nat) (owner : Option Nat) (es : List Entity) :
    Entity.entity { c.facts (.ofIndex i) with parent := owner.map .ofIndex } es =
      withOwner owner (.entity (c.facts (.ofIndex i)) es) := by
  cases owner <;> rfl

theorem adopt_map_snd (c : Candidate) (m : Nat) (es : List (Nat × Entity)) :
    adopt (c, m) (es.map (fun x => x.2)) =
      .entity (c.facts (.ofIndex m))
        ((es.takeWhile (fun x => c.span.contains x.2.facts.span)).map
          (fun x => x.2.ownedBy (.ofIndex m))) ::
        (es.dropWhile (fun x => c.span.contains x.2.facts.span)).map (fun x => x.2) := by
  unfold adopt
  simp only [List.takeWhile_map, List.dropWhile_map, List.map_map]
  rfl

/-- An array with a place for every slot, in which the entities stand at their positions, each with
its owner. -/
structure Rebuilt (t : Slots) (es : List (Nat × Entity)) (built : List (Option Entity)) : Prop where
  length : built.length = t.slots.length
  there : ∀ x ∈ es, ∃ s, t.slots[x.1]? = some s ∧
    built[x.1]? = some (some (withOwner s.owner x.2))

section

variable {ordered : List Candidate} {t : Slots} {m : Nat} {slot : Slot} {es : List (Nat × Entity)}
  {built : List (Option Entity)}

theorem Placed.getElem?_span (ht : Placed ordered t) (hslot : t.slots[m]? = some slot) :
    (ordered.map (fun c => c.span))[m]? = some slot.candidate.span := by
  rw [← ht.candidates, List.map_map, List.getElem?_map, hslot]
  rfl

/-- No place is emptied twice: what the candidate at `m` holds is still there, and owned by it. -/
theorem Rebuilt.takeAll_children (h : Rebuilt t es built) (ht : Placed ordered t)
    (hb : (ordered.map (fun c => c.span)).Pairwise Span.Before)
    (hes : Rooted (ordered.map (fun c => c.span)) (m + 1) es) (hslot : t.slots[m]? = some slot) :
    (takeAll built slot.children).1 =
      (es.takeWhile (fun x => slot.candidate.span.contains x.2.facts.span)).map
        (fun x => x.2.ownedBy (.ofIndex m)) := by
  have hright := ht.right m slot hslot
  have hchildren := hes.children_eq hb (ht.getElem?_span hslot) hright
  have hsub := List.takeWhile_sublist (l := es)
    (fun x => slot.candidate.span.contains x.2.facts.span)
  rw [hchildren]
  refine takeAll_fst _ (hes.nodup.sublist (hsub.map _)) fun x hx => ?_
  obtain ⟨s, hs, hx'⟩ := h.there x (hsub.subset hx)
  have hmem : x.1 ∈ slot.children := by
    rw [hchildren]
    exact List.mem_map.mpr ⟨x, hx, rfl⟩
  rw [hx', ((ht.right _ _ hs).owner m).mpr ((hright.children x.1).mp hmem)]
  rfl

/-- Building the slot at `m` puts its entity in its place and empties the places of what it holds. -/
theorem Rebuilt.build (h : Rebuilt t es built) (ht : Placed ordered t)
    (hb : (ordered.map (fun c => c.span)).Pairwise Span.Before)
    (hes : Rooted (ordered.map (fun c => c.span)) (m + 1) es) (hslot : t.slots[m]? = some slot) :
    Rebuilt t
      ((m, .entity (slot.candidate.facts (.ofIndex m))
        ((es.takeWhile (fun x => slot.candidate.span.contains x.2.facts.span)).map
          (fun x => x.2.ownedBy (.ofIndex m)))) ::
        es.dropWhile (fun x => slot.candidate.span.contains x.2.facts.span))
      (Slots.build (slot, m) built) := by
  have hspan := ht.getElem?_span hslot
  have hm : m < t.slots.length := (List.getElem?_eq_some_iff.mp hslot).1
  refine ⟨by rw [Slots.build, List.length_set, length_takeAll, h.length], fun x hx => ?_⟩
  rcases List.mem_cons.mp hx with rfl | hx
  · refine ⟨slot, hslot, ?_⟩
    rw [Slots.build, List.getElem?_set_self (by rw [length_takeAll, h.length]; exact hm),
      h.takeAll_children ht hb hes hslot, entity_eq_withOwner]
  · have hxes := (List.dropWhile_sublist _).subset hx
    obtain ⟨s, hs, hx'⟩ := h.there x hxes
    have hne : m ≠ x.1 := by
      have := (hes.of_mem hxes).1
      omega
    have hnot : x.1 ∉ slot.children := by
      intro hmem
      have hin := ((ht.right m slot hslot).children x.1).mp hmem
      exact hes.not_held hb hspan hx ((encloses_iff hspan (hes.span x hxes)).mp hin.encloses)
    refine ⟨s, hs, ?_⟩
    rw [Slots.build, List.getElem?_set_ne hne, getElem?_takeAll built hnot]
    exact hx'

end

/-- Going back over the slots from the end, the array holds the trees of the candidates passed, and
these trees are the forest of these candidates. -/
theorem exists_rooted {ordered : List Candidate} {t : Slots} (ht : Placed ordered t)
    (hb : (ordered.map (fun c => c.span)).Pairwise Span.Before) (rest past : List Slot)
    (hslots : t.slots = past ++ rest) :
    ∃ es, Rooted (ordered.map (fun c => c.span)) past.length es ∧
      es.map (fun x => x.2) =
        ((rest.map (fun s => s.candidate)).zipIdx past.length).foldr adopt [] ∧
      Rebuilt t es
        ((rest.zipIdx past.length).foldr build (List.replicate t.slots.length none)) := by
  induction rest generalizing past with
  | nil =>
    refine ⟨[], ⟨List.Pairwise.nil, by simp, fun i => ?_⟩, rfl, ⟨by simp, by simp⟩⟩
    have hlen := ht.length_eq
    rw [hslots, List.append_nil] at hlen
    rw [List.length_map]
    constructor
    · intro hi
      cases hi
    · rintro ⟨hle, hlt, -⟩
      omega
  | cons slot rest ih =>
    obtain ⟨es, hes, hforest, hbuilt⟩ := ih (past ++ [slot]) (by rw [hslots]; simp)
    rw [List.length_append, List.length_singleton] at hes hforest hbuilt
    have hslot : t.slots[past.length]? = some slot := by rw [hslots]; simp
    rw [List.map_cons, List.zipIdx_cons, List.zipIdx_cons, List.foldr_cons, List.foldr_cons,
      ← hforest, adopt_map_snd]
    exact ⟨_, hes.cons hb (ht.getElem?_span hslot) rfl, rfl, hbuilt.build ht hb hes hslot⟩

/-- The slots without an owner are the positions of the trees of all candidates. -/
theorem Placed.roots_eq {ordered : List Candidate} {t : Slots} (ht : Placed ordered t)
    {es : List (Nat × Entity)} (h : Rooted (ordered.map (fun c => c.span)) 0 es) :
    (t.slots.zipIdx.filter (fun s => s.1.owner.isNone)).map (fun s => s.2) =
      es.map (fun x => x.1) := by
  have hinc : (t.slots.zipIdx.map (fun s => s.2)).Pairwise (fun a b => a < b) := by
    rw [List.zipIdx_map_snd]
    exact List.pairwise_lt_range'
  refine (hinc.sublist (List.filter_sublist.map _)).eq_of_mem_iff
    (List.pairwise_map.mpr h.increasing) fun i => ?_
  rw [h.root, List.mem_map]
  constructor
  · rintro ⟨⟨s, i⟩, hs, rfl⟩
    obtain ⟨hs, hnone⟩ := List.mem_filter.mp hs
    have hi : t.slots[i]? = some s := List.mem_zipIdx_iff_getElem?.mp hs
    have hlen := (List.getElem?_eq_some_iff.mp hi).1
    rw [ht.length_eq] at hlen
    rw [Option.isNone_iff_eq_none, (ht.right i s hi).owner_eq_none_iff] at hnone
    exact ⟨Nat.zero_le _, by rw [List.length_map]; exact hlen, fun k _ => hnone k⟩
  · rintro ⟨-, hlen, hnone⟩
    rw [List.length_map, ← ht.length_eq] at hlen
    have hi := List.getElem?_eq_getElem hlen
    refine ⟨(t.slots[i], i), List.mem_filter.mpr ⟨List.mem_zipIdx_iff_getElem?.mpr hi, ?_⟩, rfl⟩
    rw [Option.isNone_iff_eq_none, (ht.right i _ hi).owner_eq_none_iff]
    exact fun k => hnone k (Nat.zero_le k)

/-- **One pass and back gives the same forest.** -/
theorem forest_eq_nest {ordered : List Candidate}
    (hb : ordered.Pairwise (fun a b => a.span.Before b.span)) : forest ordered = nest ordered := by
  have ht := placed_ofCandidates hb
  obtain ⟨es, hes, hforest, hbuilt⟩ :=
    exists_rooted ht (List.pairwise_map.mpr hb) (ofCandidates ordered).slots [] rfl
  rw [List.length_nil] at hes hforest hbuilt
  rw [ht.candidates] at hforest
  have hroots := ht.roots_eq hes
  unfold forest nest
  simp only [hroots]
  rw [← hforest]
  refine takeAll_fst (fun x => x.2) hes.nodup fun x hx => ?_
  obtain ⟨s, hs, hx'⟩ := hbuilt.there x hx
  have hnone : s.owner = none := by
    rw [(ht.right _ _ hs).owner_eq_none_iff]
    exact fun k => (hes.of_mem hx).2 k (Nat.zero_le k)
  rw [hnone] at hx'
  exact hx'

end Slots

end CodeAtlas
