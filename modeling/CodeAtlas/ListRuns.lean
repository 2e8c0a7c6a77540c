/-!
Runs of equal neighbours.  Only neighbours are compared, so an element may be kept twice; in a list
that keeps what is the same together this does not happen (`pairwise_firstOfRuns`), and nothing is
lost (`exists_mem_firstOfRuns`).
-/

namespace CodeAtlas

/-- The list without the elements that are the same as the last one kept. -/
def dropSame {α : Type} (same : α → α → Bool) (kept : α) : List α → List α
  | [] => []
  | a :: l => if same a kept then dropSame same kept l else a :: dropSame same a l

/-- The first element of every run of elements that are the same. -/
def firstOfRuns {α : Type} (same : α → α → Bool) : List α → List α
  | [] => []
  | a :: l => a :: dropSame same a l

section

variable {α : Type} {same : α → α → Bool}

theorem dropSame_sublist (same : α → α → Bool) (kept : α) (l : List α) :
    (dropSame same kept l).Sublist l := by
  induction l generalizing kept with
  | nil => exact List.Sublist.refl _
  | cons a l ih =>
    unfold dropSame
    split
    · exact (ih kept).cons a
    · exact (ih a).cons_cons a

theorem firstOfRuns_sublist (same : α → α → Bool) (l : List α) :
    (firstOfRuns same l).Sublist l := by
  cases l with
  | nil => exact List.Sublist.refl _
  | cons a l => exact (dropSame_sublist same a l).cons_cons a

theorem exists_mem_dropSame (hrefl : ∀ a, same a a = true) (kept : α) (l : List α) {a : α}
    (h : a ∈ l) : ∃ b ∈ kept :: dropSame same kept l, same a b = true := by
  induction l generalizing kept with
  | nil => cases h
  | cons x l ih =>
    unfold dropSame
    split
    · rename_i hx
      rcases List.mem_cons.mp h with rfl | h
      · exact ⟨kept, List.mem_cons_self, hx⟩
      · exact ih kept h
    · rcases List.mem_cons.mp h with rfl | h
      · exact ⟨a, List.mem_cons_of_mem _ List.mem_cons_self, hrefl a⟩
      · obtain ⟨b, hb, hab⟩ := ih x h
        exact ⟨b, List.mem_cons_of_mem _ hb, hab⟩

/-- Every element is the same as one that is kept. -/
theorem exists_mem_firstOfRuns (hrefl : ∀ a, same a a = true) {l : List α} {a : α} (h : a ∈ l) :
    ∃ b ∈ firstOfRuns same l, same a b = true := by
  cases l with
  | nil => cases h
  | cons x l =>
    rcases List.mem_cons.mp h with rfl | h
    · exact ⟨a, List.mem_cons_self, hrefl a⟩
    · exact exists_mem_dropSame hrefl x l h

theorem pairwise_dropSame {R : α → α → Prop}
    (hbetween : ∀ a b c, R a b → R b c → same c a = true → same b a = true) (kept : α) (l : List α)
    (h : (kept :: l).Pairwise R) :
    (kept :: dropSame same kept l).Pairwise (fun a b => R a b ∧ same b a = false) := by
  induction l generalizing kept with
  | nil => simp [dropSame]
  | cons x l ih =>
    have hl := List.pairwise_cons.mp h
    unfold dropSame
    split
    · exact ih kept (h.sublist ((List.sublist_cons_self x l).cons_cons kept))
    · rename_i hx
      have hkx := hl.1 x List.mem_cons_self
      refine List.pairwise_cons.mpr ⟨fun y hy => ?_, ih x hl.2⟩
      rcases List.mem_cons.mp hy with rfl | hy
      · exact ⟨hkx, Bool.eq_false_iff.mpr hx⟩
      · -- `y` cannot be the same as `kept` again, with `x` between them.
        have hy' := (dropSame_sublist same x l).subset hy
        have hxy := (List.pairwise_cons.mp hl.2).1 y hy'
        refine ⟨hl.1 y (List.mem_cons_of_mem x hy'), Bool.eq_false_iff.mpr fun hsame => ?_⟩
        exact hx (hbetween kept x y hkx hxy hsame)

/-- When what is the same stands together, no two that are kept are the same. -/
theorem pairwise_firstOfRuns {R : α → α → Prop}
    (hbetween : ∀ a b c, R a b → R b c → same c a = true → same b a = true) {l : List α}
    (h : l.Pairwise R) : (firstOfRuns same l).Pairwise (fun a b => R a b ∧ same b a = false) := by
  cases l with
  | nil => exact List.Pairwise.nil
  | cons a l => exact pairwise_dropSame hbetween a l h

end

end CodeAtlas
