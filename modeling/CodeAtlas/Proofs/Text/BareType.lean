import CodeAtlas.Proofs.Text.Lines
import CodeAtlas.Proofs.Text.Spacing
import CodeAtlas.Proofs.Text.TypeText

/-!
What is left of a type text without its annotation.  It is collapsed like the text that it was cut
from, and there is nothing left exactly of a text that is all annotation: arrows, and colons after
them.

    bareType "-> Map  of T"    Map of T
    bareType "->:"             nothing
-/

namespace CodeAtlas

namespace Text

/-! ## Marks -/

/-- Arrows, then colons, and nothing else: the marks that announce a type, without a type. -/
def OnlyMarks (cs : List Char) : Prop :=
  ∃ arrows colons, cs = (List.replicate arrows ['-', '>']).flatten ++ List.replicate colons ':'

theorem dropArrows_append (arrows : Nat) (cs : List Char) :
    dropArrows ((List.replicate arrows ['-', '>']).flatten ++ cs) = dropArrows cs := by
  induction arrows with
  | zero => rfl
  | succ arrows ih =>
    rw [List.replicate_succ, List.flatten_cons, List.append_assoc]
    exact ih

theorem exists_arrows (cs : List Char) :
    ∃ arrows, cs = (List.replicate arrows ['-', '>']).flatten ++ dropArrows cs := by
  induction cs using dropArrows.induct with
  | case1 rest ih =>
    obtain ⟨arrows, h⟩ := ih
    refine ⟨arrows + 1, ?_⟩
    rw [List.replicate_succ, List.flatten_cons, List.append_assoc, dropArrows, ← h]
    rfl
  | case2 cs h => exact ⟨0, (dropArrows_of_no_arrow h).symm⟩

theorem dropArrows_suffix (cs : List Char) : dropArrows cs <:+ cs := by
  obtain ⟨arrows, h⟩ := exists_arrows cs
  exact ⟨_, h.symm⟩

theorem bareType_eq_nil_iff {cs : List Char} (h : Collapsed cs) :
    bareType cs = [] ↔ OnlyMarks cs := by
  constructor
  · intro hbare
    obtain ⟨arrows, harrows⟩ := exists_arrows cs
    -- what follows the colons is blank to its end, where a collapsed text has no blank
    have hrest : dropLeading (· == ':') (dropArrows cs) = [] := by
      by_contra hne
      have hsuffix : dropLeading (· == ':') (dropArrows cs) <:+ cs :=
        (List.dropWhile_suffix _).trans (dropArrows_suffix cs)
      have hlast := hsuffix.getLast hne
      have hblank := (trimChars_eq_nil_iff _).mp hbare _ (List.getLast_mem hne)
      have hunblank := h.unblank_getLast? _
        (hlast ▸ List.getLast?_eq_some_getLast (hsuffix.ne_nil hne))
      rw [hunblank] at hblank
      cases hblank
    have hcolons : ∀ c ∈ dropArrows cs, c = ':' := by
      intro c hc
      exact beq_iff_eq.mp (List.dropWhile_eq_nil_iff.mp hrest c hc)
    exact ⟨arrows, (dropArrows cs).length, by
      rw [← List.eq_replicate_of_mem hcolons]; exact harrows⟩
  · rintro ⟨arrows, colons, rfl⟩
    have hnone : ∀ rest, List.replicate colons ':' ≠ '-' :: '>' :: rest := by
      intro rest he
      have hmem : '-' ∈ List.replicate colons ':' := by rw [he]; exact List.mem_cons_self
      have := List.eq_of_mem_replicate hmem
      contradiction
    have hcolons : dropLeading (· == ':') (List.replicate colons ':') = [] := by
      refine List.dropWhile_eq_nil_iff.mpr fun c hc => ?_
      rw [List.eq_of_mem_replicate hc]
      rfl
    rw [bareType, dropArrows_append, dropArrows_of_no_arrow hnone, hcolons]
    rfl

theorem collapsed_bareType {cs : List Char} (h : Collapsed cs) : Collapsed (bareType cs) := by
  have hpart : dropLeading (· == ':') (dropArrows cs) <:+ cs :=
    (List.dropWhile_suffix _).trans (dropArrows_suffix cs)
  rw [bareType, (h.singleSpaced.part hpart.isInfix).trimChars_eq]
  exact collapsed_collapseChars _

/-! ## Type texts -/

theorem typeText?_eq_none_iff (s : String) :
    typeText? s = none ↔ OnlyMarks (collapseChars s.toList) := by
  rw [← bareType_eq_nil_iff (collapsed_collapseChars s.toList)]
  unfold typeText?
  simp

theorem collapsed_of_typeText? {s t : String} (h : typeText? s = some t) :
    Collapsed t.toList ∧ t ≠ "" := by
  unfold typeText? at h
  dsimp only at h
  split at h
  · cases h
  · rename_i hne
    obtain rfl := Option.some.inj h
    refine ⟨?_, fun hempty => hne ?_⟩
    · rw [String.toList_ofList]
      exact collapsed_bareType (collapsed_collapseChars _)
    · rw [List.isEmpty_iff, ← String.toList_ofList (l := bareType _), hempty]
      rfl

end Text

end CodeAtlas
