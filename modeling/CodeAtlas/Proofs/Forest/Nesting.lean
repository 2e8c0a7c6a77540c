import CodeAtlas.Proofs.Forest.Listing

/-!
Nesting by containment.  Over spans that may overlap in any way, the owner of an entity is the latest
entity before it whose span holds its own, and an entity without an owner lies in no other span.
The invariant is `Nested`: it says this of every child and every tree of a forest, and that the
trees end later and later.  The last part is what makes `adopt` right: the trees that a candidate
holds are the leading ones.

    spans in strict order → Nested spans (nest ordered)                          (nested_nest)

For spans that are nested or disjoint, the owner is the smallest span around an entity
(`smallest_of_innermost`).
-/

namespace CodeAtlas

namespace Forest

open Entity

/-! ## Positions -/

/-- The span at `j` holds the span at `i`. -/
def Encloses (spans : List Span) (j i : Nat) : Prop :=
  ∃ s t, spans[j]? = some s ∧ spans[i]? = some t ∧ s.contains t = true

/-- `j` is the latest position before `i` whose span holds the span at `i`. -/
structure Innermost (spans : List Span) (j i : Nat) : Prop where
  before : j < i
  encloses : Encloses spans j i
  latest : ∀ k, k < i → Encloses spans k i → k ≤ j

theorem encloses_cons_succ (s : Span) (spans : List Span) (j i : Nat) :
    Encloses (s :: spans) (j + 1) (i + 1) ↔ Encloses spans j i := by
  unfold Encloses
  rw [List.getElem?_cons_succ, List.getElem?_cons_succ]

theorem encloses_cons_zero {s t : Span} {spans : List Span} {i : Nat} (h : spans[i]? = some t) :
    Encloses (s :: spans) 0 (i + 1) ↔ s.contains t = true := by
  constructor
  · rintro ⟨s', t', hs, ht, hc⟩
    rw [List.getElem?_cons_succ, h] at ht
    cases hs
    cases ht
    exact hc
  · intro hc
    exact ⟨s, t, rfl, h, hc⟩

theorem Innermost.cons {spans : List Span} {j i : Nat} (h : Innermost spans j i) (s : Span) :
    Innermost (s :: spans) (j + 1) (i + 1) := by
  refine ⟨Nat.succ_lt_succ h.before, (encloses_cons_succ s spans j i).mpr h.encloses, ?_⟩
  intro k hk hke
  cases k with
  | zero => omega
  | succ k =>
    have := h.latest k (by omega) ((encloses_cons_succ s spans k i).mp hke)
    omega

theorem before_of_lt {spans : List Span} (h : spans.Pairwise Span.Before) {i j : Nat} {s t : Span}
    (hi : spans[i]? = some s) (hj : spans[j]? = some t) (hij : i < j) : s.Before t := by
  obtain ⟨hi', rfl⟩ := List.getElem?_eq_some_iff.mp hi
  obtain ⟨hj', rfl⟩ := List.getElem?_eq_some_iff.mp hj
  exact List.pairwise_iff_getElem.mp h i j hi' hj' hij

theorem position_unique {spans : List Span} (h : spans.Pairwise Span.Before) {i j : Nat} {s : Span}
    (hi : spans[i]? = some s) (hj : spans[j]? = some s) : i = j := by
  rcases Nat.lt_trichotomy i j with hlt | heq | hgt
  · exact absurd (before_of_lt h hi hj hlt) (Span.Before.irrefl s)
  · exact heq
  · exact absurd (before_of_lt h hj hi hgt) (Span.Before.irrefl s)

theorem lt_of_before {spans : List Span} (h : spans.Pairwise Span.Before) {i j : Nat} {s t : Span}
    (hi : spans[i]? = some s) (hj : spans[j]? = some t) (hst : s.Before t) : i < j := by
  rcases Nat.lt_trichotomy i j with hlt | rfl | hgt
  · exact hlt
  · rw [hi] at hj
    cases hj
    exact absurd hst (Span.Before.irrefl _)
  · exact absurd (hst.trans (before_of_lt h hj hi hgt)) (Span.Before.irrefl _)

theorem Encloses.lt {spans : List Span} (h : spans.Pairwise Span.Before) {j i : Nat}
    (he : Encloses spans j i) (hne : j ≠ i) : j < i := by
  obtain ⟨s, t, hs, ht, hc⟩ := he
  rcases Nat.lt_or_gt_of_ne hne with hlt | hgt
  · exact hlt
  · exact absurd hc (before_of_lt h ht hs hgt).not_contains

theorem Innermost.lt_length {spans : List Span} {j i : Nat} (h : Innermost spans j i) :
    i < spans.length := by
  obtain ⟨-, t, -, ht, -⟩ := h.encloses
  exact (List.getElem?_eq_some_iff.mp ht).1

theorem Innermost.unique {spans : List Span} {j j' i : Nat} (h : Innermost spans j i)
    (h' : Innermost spans j' i) : j = j' :=
  Nat.le_antisymm (h'.latest j h.before h.encloses) (h.latest j' h'.before h'.encloses)

/-- When anything before a position is around it, there is an innermost one. -/
theorem exists_innermost {spans : List Span} {k i : Nat} (hk : k < i) (hke : Encloses spans k i) :
    ∃ j, Innermost spans j i := by
  have hmax : ∀ b, (∃ k, k < b ∧ Encloses spans k i) →
      ∃ j, j < b ∧ Encloses spans j i ∧ ∀ k, k < b → Encloses spans k i → k ≤ j := by
    intro b
    induction b with
    | zero =>
      rintro ⟨k, hk, -⟩
      omega
    | succ b ih =>
      rintro ⟨k, hk, hke⟩
      by_cases hbe : Encloses spans b i
      · exact ⟨b, Nat.lt_succ_self b, hbe, fun k hk _ => by omega⟩
      · have hkb : k < b := by
          rcases Nat.lt_or_eq_of_le (Nat.le_of_lt_succ hk) with hlt | rfl
          · exact hlt
          · exact absurd hke hbe
        obtain ⟨j, hj, hje, hlatest⟩ := ih ⟨k, hkb, hke⟩
        refine ⟨j, by omega, hje, fun k hk hke => ?_⟩
        rcases Nat.lt_or_eq_of_le (Nat.le_of_lt_succ hk) with hlt | rfl
        · exact hlatest k hlt hke
        · exact absurd hke hbe
  obtain ⟨j, hj, hje, hlatest⟩ := hmax i ⟨k, hk, hke⟩
  exact ⟨j, hj, hje, hlatest⟩

/-! ## The invariant -/

/-- Every child belongs to the innermost span around it, no tree lies in an earlier span, and every
tree ends later than the ones before it. -/
structure Nested (spans : List Span) (es : List Entity) : Prop where
  root : ∀ r ∈ es, ∃ i, spans[i]? = some r.facts.span ∧ ∀ k, k < i → ¬ Encloses spans k i
  child : ∀ p ∈ preorderAll es, ∀ e ∈ p.children, ∃ j i,
    spans[j]? = some p.facts.span ∧ spans[i]? = some e.facts.span ∧ Innermost spans j i
  ends : es.Pairwise (fun a b => a.facts.span.endByte < b.facts.span.endByte)

/-- When a test fails from some element on, nothing after the leading ones passes it. -/
theorem not_of_mem_dropWhile {α : Type} {R : α → α → Prop} {p : α → Bool} {l : List α}
    (h : l.Pairwise R) (hp : ∀ a ∈ l, ∀ b ∈ l, R a b → p b = true → p a = true) {x : α}
    (hx : x ∈ l.dropWhile p) : ¬ p x = true := by
  induction l with
  | nil => cases hx
  | cons a l ih =>
    have hl := List.pairwise_cons.mp h
    rw [List.dropWhile_cons] at hx
    split at hx
    · exact ih hl.2
        (fun b hb c hc => hp b (List.mem_cons_of_mem _ hb) c (List.mem_cons_of_mem _ hc)) hx
    · next ha =>
      rcases List.mem_cons.mp hx with rfl | hx
      · exact ha
      · exact fun hpx =>
          ha (hp a List.mem_cons_self x (List.mem_cons_of_mem _ hx) (hl.1 x hx) hpx)

theorem mem_dropWhile_of_not {α : Type} {p : α → Bool} {l : List α} {m : α} (hm : m ∈ l)
    (hp : p m = false) : m ∈ l.dropWhile p := by
  rw [← List.takeWhile_append_dropWhile (p := p) (l := l)] at hm
  rcases List.mem_append.mp hm with hm | hm
  · have := List.all_eq_true.mp List.all_takeWhile m hm
    rw [hp] at this
    cases this
  · exact hm

theorem nested_adopt {c : Candidate × Nat} {spans : List Span} {es : List Entity}
    (hc : ∀ s ∈ spans, c.1.span.Before s) (h : Nested spans es) :
    Nested (c.1.span :: spans) (adopt c es) := by
  have hmem : ∀ r ∈ es, c.1.span.Before r.facts.span := by
    intro r hr
    obtain ⟨i, hi, -⟩ := h.root r hr
    exact hc _ (List.mem_of_getElem? hi)
  -- what is not adopted is not held: the trees end later and later
  have hout : ∀ r ∈ es.dropWhile (fun e => c.1.span.contains e.facts.span),
      r ∈ es ∧ ¬ c.1.span.contains r.facts.span = true := by
    intro r hr
    refine ⟨(List.dropWhile_sublist _).subset hr, not_of_mem_dropWhile h.ends ?_ hr⟩
    intro a ha b hb hab hcb
    rw [(hmem b hb).contains_iff] at hcb
    rw [(hmem a ha).contains_iff]
    omega
  refine ⟨?_, ?_, ?_⟩
  · intro r hr
    rcases mem_adopt hr with hf | hr
    · refine ⟨0, by rw [hf]; rfl, fun k hk => by omega⟩
    · obtain ⟨hr, hnot⟩ := hout r hr
      obtain ⟨i, hi, hnone⟩ := h.root r hr
      refine ⟨i + 1, hi, fun k hk hke => ?_⟩
      cases k with
      | zero => exact hnot ((encloses_cons_zero hi).mp hke)
      | succ k => exact hnone k (by omega) ((encloses_cons_succ _ _ k i).mp hke)
  · intro p hp e he
    rcases mem_preorderAll_adopt hp with ⟨hf, hch⟩ | ⟨y, hy, hch, hf⟩
    · rw [hch] at he
      obtain ⟨r, hr, rfl⟩ := List.mem_map.mp he
      have hheld : c.1.span.contains r.facts.span = true :=
        List.all_eq_true.mp List.all_takeWhile r hr
      obtain ⟨i, hi, hnone⟩ := h.root r ((List.takeWhile_sublist _).subset hr)
      refine ⟨0, i + 1, by rw [hf]; rfl, by rw [span_ownedBy]; exact hi, by omega,
        (encloses_cons_zero hi).mpr hheld, fun k hk hke => ?_⟩
      cases k with
      | zero => omega
      | succ k => exact absurd ((encloses_cons_succ _ _ k i).mp hke) (hnone k (by omega))
    · rw [hch] at he
      obtain ⟨j, i, hj, hi, hin⟩ := h.child y hy e he
      have hspan : p.facts.unowned.span = y.facts.unowned.span := by rw [hf]
      exact ⟨j + 1, i + 1, by rw [show p.facts.span = y.facts.span from hspan]; exact hj, hi,
        hin.cons _⟩
  · refine List.pairwise_cons.mpr ⟨fun r hr => ?_, h.ends.sublist (List.dropWhile_sublist _)⟩
    obtain ⟨hr, hnot⟩ := hout r hr
    rw [(hmem r hr).contains_iff] at hnot
    show c.1.span.endByte < r.facts.span.endByte
    omega

theorem nested_foldr_adopt (ps : List (Candidate × Nat))
    (h : (ps.map (fun p => p.1.span)).Pairwise Span.Before) :
    Nested (ps.map (fun p => p.1.span)) (ps.foldr adopt []) := by
  induction ps with
  | nil => exact ⟨by simp, by simp [preorderAll], List.Pairwise.nil⟩
  | cons p ps ih =>
    rw [List.map_cons] at h ⊢
    have hl := List.pairwise_cons.mp h
    exact nested_adopt hl.1 (ih hl.2)

theorem nested_nest {ordered : List Candidate}
    (h : ordered.Pairwise (fun a b => a.span.Before b.span)) :
    Nested (ordered.map (fun c => c.span)) (nest ordered) := by
  have hspans : ordered.zipIdx.map (fun p => p.1.span) = ordered.map (fun c => c.span) := by
    conv => rhs; rw [← List.zipIdx_map_fst 0 ordered, List.map_map]
    rfl
  rw [← hspans]
  refine nested_foldr_adopt ordered.zipIdx ?_
  rw [hspans]
  exact List.pairwise_map.mpr h

/-! ## Owners by position -/

/-- The entity at `j` of the listing owns the entity at `i`. -/
def Owns (es : List Entity) (j i : Nat) : Prop :=
  ∃ p e, (walk es)[j]? = some p ∧ (walk es)[i]? = some e ∧ e ∈ p.children

def IsRoot (es : List Entity) (i : Nat) : Prop :=
  ∃ e, (walk es)[i]? = some e ∧ e ∈ es

def spans (cs : List Candidate) : List Span :=
  (survivors cs).map (fun c => c.span)

theorem spans_before (cs : List Candidate) : (spans cs).Pairwise Span.Before :=
  List.pairwise_map.mpr (survivors_before cs)

theorem nested_assemble (cs : List Candidate) : Nested (spans cs) (assemble cs) :=
  nested_nest (survivors_before cs)

theorem map_span_walk (cs : List Candidate) :
    (walk (assemble cs)).map (fun e => e.facts.span) = spans cs := by
  have h := congrArg (List.map Facts.span) (listing_nest (survivors cs))
  rw [listing, List.map_map, List.map_map] at h
  rw [walk_eq_preorder, spans]
  conv => rhs; rw [← List.zipIdx_map_fst 0 (survivors cs), List.map_map]
  exact h

theorem span_of_walk {cs : List Candidate} {i : Nat} {e : Entity}
    (h : (walk (assemble cs))[i]? = some e) : (spans cs)[i]? = some e.facts.span := by
  rw [← map_span_walk, List.getElem?_map, h]
  rfl

theorem innermost_of_owns {cs : List Candidate} {j i : Nat} (h : Owns (assemble cs) j i) :
    Innermost (spans cs) j i := by
  obtain ⟨p, e, hj, hi, he⟩ := h
  have hp : p ∈ preorderAll (assemble cs) := by
    rw [← walk_eq_preorder]
    exact List.mem_of_getElem? hj
  obtain ⟨j', i', hj', hi', hin⟩ := (nested_assemble cs).child p hp e he
  rw [position_unique (spans_before cs) (span_of_walk hj) hj',
    position_unique (spans_before cs) (span_of_walk hi) hi']
  exact hin

theorem not_encloses_of_isRoot {cs : List Candidate} {i : Nat} (h : IsRoot (assemble cs) i) :
    ∀ k, k ≠ i → ¬ Encloses (spans cs) k i := by
  obtain ⟨e, hi, he⟩ := h
  obtain ⟨i', hi', hnone⟩ := (nested_assemble cs).root e he
  have hii : i = i' := position_unique (spans_before cs) (span_of_walk hi) hi'
  subst hii
  intro k hk hke
  exact hnone k (hke.lt (spans_before cs) hk) hke

theorem isRoot_or_owns {cs : List Candidate} {i : Nat} (h : i < (survivors cs).length) :
    IsRoot (assemble cs) i ∨ ∃ j, Owns (assemble cs) j i := by
  have hlen : i < (walk (assemble cs)).length := by
    have := congrArg List.length (map_span_walk cs)
    rw [List.length_map, spans, List.length_map] at this
    omega
  obtain ⟨e, hi⟩ : ∃ e, (walk (assemble cs))[i]? = some e := ⟨_, List.getElem?_eq_getElem hlen⟩
  have he := List.mem_of_getElem? hi
  rw [walk_eq_preorder] at he
  rcases root_or_child he with he | ⟨p, hp, he⟩
  · exact Or.inl ⟨e, hi, he⟩
  · rw [← walk_eq_preorder] at hp
    obtain ⟨j, hj⟩ := List.mem_iff_getElem?.mp hp
    exact Or.inr ⟨j, p, e, hj, hi, he⟩

theorem owns_iff (cs : List Candidate) (j i : Nat) :
    Owns (assemble cs) j i ↔ Innermost (spans cs) j i := by
  constructor
  · exact innermost_of_owns
  · intro hin
    have hi : i < (survivors cs).length := by
      have := hin.lt_length
      rwa [spans, List.length_map] at this
    rcases isRoot_or_owns hi with hroot | ⟨j', hj'⟩
    · exact absurd hin.encloses (not_encloses_of_isRoot hroot j (Nat.ne_of_lt hin.before))
    · rw [hin.unique (innermost_of_owns hj')]
      exact hj'

theorem isRoot_iff {cs : List Candidate} {i : Nat} (h : i < (survivors cs).length) :
    IsRoot (assemble cs) i ↔ ∀ k, k ≠ i → ¬ Encloses (spans cs) k i := by
  constructor
  · exact not_encloses_of_isRoot
  · intro hnone
    rcases isRoot_or_owns h with hroot | ⟨j, hj⟩
    · exact hroot
    · have hin := innermost_of_owns hj
      exact absurd hin.encloses (hnone j (Nat.ne_of_lt hin.before))

/-! ## Spans that are nested or disjoint -/

/-- No span is empty, and any two are nested or have no byte in common. -/
structure Laminar (spans : List Span) : Prop where
  nonempty : ∀ s ∈ spans, s.isEmpty = false
  nested_or_disjoint : ∀ s ∈ spans, ∀ t ∈ spans, s.contains t = true ∨ t.contains s = true ∨
    s.endByte ≤ t.startByte ∨ t.endByte ≤ s.startByte

/-- `j` is the one smallest position around `i`: every other one around `i` is around `j` as well,
and has more bytes. -/
def Smallest (spans : List Span) (j i : Nat) : Prop :=
  j ≠ i ∧ Encloses spans j i ∧ ∀ k, k ≠ i → k ≠ j → Encloses spans k i →
    ∃ s t, spans[j]? = some s ∧ spans[k]? = some t ∧ t.contains s = true ∧ s.length < t.length

theorem Laminar.lt {spans : List Span} (h : Laminar spans) {s : Span} (hs : s ∈ spans) :
    s.startByte < s.endByte := by
  have := h.nonempty s hs
  simp only [Span.isEmpty, Span.length, beq_eq_false_iff_ne] at this
  omega

theorem smallest_of_innermost {spans : List Span} (hb : spans.Pairwise Span.Before)
    (h : Laminar spans) {j i : Nat} (hin : Innermost spans j i) : Smallest spans j i := by
  refine ⟨Nat.ne_of_lt hin.before, hin.encloses, fun k hki hkj hke => ?_⟩
  obtain ⟨s, u, hs, hu, hsu⟩ := hin.encloses
  obtain ⟨t, u', ht, hu', htu⟩ := hke
  rw [hu] at hu'
  cases hu'
  have hlt : k < j := by
    have := hin.latest k (Encloses.lt hb ⟨t, u, ht, hu, htu⟩ hki) ⟨t, u, ht, hu, htu⟩
    omega
  have hts := before_of_lt hb ht hs hlt
  have hpos := h.lt (List.mem_of_getElem? hs)
  -- both hold the bytes at `i`, so they are not disjoint, and the later one is inside
  have hcontains : t.contains s = true := by
    have hne := h.lt (List.mem_of_getElem? hu)
    rcases h.nested_or_disjoint t (List.mem_of_getElem? ht) s (List.mem_of_getElem? hs) with
      hc | hc | hd
    · exact hc
    · exact absurd hc hts.not_contains
    · rw [Span.contains_iff] at hsu htu
      omega
  refine ⟨s, t, hs, ht, hcontains, ?_⟩
  rw [hts.contains_iff] at hcontains
  unfold Span.Before at hts
  unfold Span.length
  omega

/-- Of two spans in order, the later one starts after the end of the earlier one, unless it lies
within it. -/
theorem Laminar.end_le_start {spans : List Span} (h : Laminar spans) {s t : Span} (hs : s ∈ spans)
    (ht : t ∈ spans) (hb : s.Before t) (hnot : ¬ s.contains t = true) :
    s.endByte ≤ t.startByte := by
  have hpos := h.lt ht
  rcases h.nested_or_disjoint s hs t ht with hc | hc | hd | hd
  · exact absurd hc hnot
  · exact absurd hc hb.not_contains
  · exact hd
  · unfold Span.Before at hb
    omega

theorem Laminar.subset {l m : List Span} (h : Laminar m) (hlm : ∀ s ∈ l, s ∈ m) : Laminar l where
  nonempty := fun s hs => h.nonempty s (hlm s hs)
  nested_or_disjoint := fun s hs t ht => h.nested_or_disjoint s (hlm s hs) t (hlm t ht)

theorem laminar_spans {cs : List Candidate} (h : Laminar (cs.map (fun c => c.span))) :
    Laminar (spans cs) := by
  refine h.subset fun s hs => ?_
  obtain ⟨c, hc, rfl⟩ := List.mem_map.mp hs
  exact List.mem_map.mpr ⟨c, mem_of_mem_survivors hc, rfl⟩

/-- Each entity ends before the next one starts. -/
def Apart (es : List Entity) : Prop :=
  es.Pairwise (fun a b => a.facts.span.endByte ≤ b.facts.span.startByte)

/-- Listed entities none of which lies in an earlier one follow each other. -/
theorem apart_of_sublist {cs : List Candidate} (h : Laminar (spans cs)) {es : List Entity}
    (hsub : es.Sublist (walk (assemble cs)))
    (hnot : ∀ a ∈ es, ∀ b ∈ es, a.facts.span.Before b.facts.span →
      ¬ a.facts.span.contains b.facts.span = true) : Apart es := by
  have hspans := hsub.map (fun e => e.facts.span)
  rw [map_span_walk] at hspans
  have hpair := List.pairwise_map.mp ((spans_before cs).sublist hspans)
  have hmem : ∀ e ∈ es, e.facts.span ∈ spans cs :=
    fun e he => hspans.subset (List.mem_map.mpr ⟨e, he, rfl⟩)
  refine hpair.imp_of_mem fun {a b} ha hb hab => ?_
  exact h.end_le_start (hmem a ha) (hmem b hb) hab (hnot a ha b hb hab)

theorem apart_children {cs : List Candidate} (h : Laminar (spans cs)) {p : Entity}
    (hp : p ∈ walk (assemble cs)) : Apart p.children := by
  have hsub : p.children.Sublist (walk (assemble cs)) := by
    rw [walk_eq_preorder] at hp ⊢
    exact children_sublist hp
  refine apart_of_sublist h hsub fun a ha b hb hab hcontains => ?_
  obtain ⟨j, hj⟩ := List.mem_iff_getElem?.mp hp
  obtain ⟨i, hi⟩ := List.mem_iff_getElem?.mp (hsub.subset ha)
  obtain ⟨k, hk⟩ := List.mem_iff_getElem?.mp (hsub.subset hb)
  have hia := innermost_of_owns ⟨p, a, hj, hi, ha⟩
  have hkb := innermost_of_owns ⟨p, b, hj, hk, hb⟩
  have he : Encloses (spans cs) i k := ⟨_, _, span_of_walk hi, span_of_walk hk, hcontains⟩
  -- an earlier sibling around `b` would be a later owner than `p`
  have := hkb.latest i (lt_of_before (spans_before cs) (span_of_walk hi) (span_of_walk hk) hab) he
  have := hia.before
  omega

theorem apart_assemble {cs : List Candidate} (h : Laminar (spans cs)) : Apart (assemble cs) := by
  have hsub : (assemble cs).Sublist (walk (assemble cs)) := by
    rw [walk_eq_preorder]
    exact sublist_preorderAll _
  refine apart_of_sublist h hsub fun a ha b hb hab hcontains => ?_
  obtain ⟨i, hi⟩ := List.mem_iff_getElem?.mp (hsub.subset ha)
  obtain ⟨k, hk⟩ := List.mem_iff_getElem?.mp (hsub.subset hb)
  have hik := lt_of_before (spans_before cs) (span_of_walk hi) (span_of_walk hk) hab
  exact not_encloses_of_isRoot ⟨b, hk, hb⟩ i (Nat.ne_of_lt hik)
    ⟨_, _, span_of_walk hi, span_of_walk hk, hcontains⟩

/-- **Nesting is by containment.**  The listing shows the spans of the survivors; the owner of an
entity is the latest one before it whose span holds its own; and a tree is an entity that lies in no
other survivor.  When no span is empty and any two are nested or disjoint, the owner is the one
smallest span around an entity, and siblings follow each other. -/
theorem assemble_nests_by_containment (cs : List Candidate) :
    (walk (assemble cs)).map (fun e => e.facts.span) = spans cs ∧
    (∀ j i, Owns (assemble cs) j i ↔ Innermost (spans cs) j i) ∧
    (∀ i, i < (survivors cs).length →
      (IsRoot (assemble cs) i ↔ ∀ k, k ≠ i → ¬ Encloses (spans cs) k i)) ∧
    (Laminar (cs.map (fun c => c.span)) →
      (∀ j i, Owns (assemble cs) j i → Smallest (spans cs) j i) ∧
      (∀ p ∈ walk (assemble cs), Apart p.children) ∧ Apart (assemble cs)) := by
  refine ⟨map_span_walk cs, owns_iff cs, fun i hi => isRoot_iff hi, fun h => ?_⟩
  have hl := laminar_spans h
  refine ⟨fun j i hown => ?_, fun p hp => apart_children hl hp, apart_assemble hl⟩
  exact smallest_of_innermost (spans_before cs) hl (innermost_of_owns hown)

/-- A structure with two fields, and a function after it. -/
def pointAndOrigin : List Candidate :=
  [onFirstLine .fieldDecl 5 15 21 "y", onFirstLine .structDecl 2 0 30 "Point",
    onFirstLine .fieldDecl 5 7 13 "x", onFirstLine .functionDecl 1 31 50 "origin"]

theorem assemble_nests_by_containment_point :
    Laminar (pointAndOrigin.map (fun c => c.span)) ∧ Apart (assemble pointAndOrigin) ∧
    ∀ p ∈ walk (assemble pointAndOrigin), Apart p.children := by
  have h : Laminar (pointAndOrigin.map (fun c => c.span)) := ⟨by decide, by decide⟩
  obtain ⟨-, hchildren, hroots⟩ := (assemble_nests_by_containment pointAndOrigin).2.2.2 h
  exact ⟨h, hroots, hchildren⟩

end Forest

end CodeAtlas
