import CodeAtlas.Proofs.Text.Collapsing
import Mathlib.Data.List.Chain

/-!
Spacing.  A text has *single spacing* if its blanks are spaces and no two of them are neighbours
(`SingleSpaced`).  Parts of such a text have single spacing too, and trimming one is collapsing it
(`SingleSpaced.trimChars_eq`).  A text is collapsed if and only if each of its blanks is a space between
two characters that are not blank (`collapsed_iff_loneSpaces`).
-/

namespace CodeAtlas.Text

/-! ## Single spacing -/

/-- The only blanks are spaces, and no two of them are neighbours. -/
structure SingleSpaced (cs : List Char) : Prop where
  spaces : ∀ c ∈ cs, isBlank c = true → c = ' '
  apart : cs.IsChain (fun a b => isBlank a = false ∨ isBlank b = false)

namespace SingleSpaced

variable {cs : List Char}

theorem part (h : SingleSpaced cs) {piece : List Char} (hpiece : piece <:+: cs) :
    SingleSpaced piece :=
  ⟨fun c hc => h.spaces c (hpiece.subset hc), List.IsChain.infix h.apart hpiece⟩

theorem tail {c : Char} (h : SingleSpaced (c :: cs)) : SingleSpaced cs :=
  h.part (List.suffix_cons c cs).isInfix

theorem cons (h : SingleSpaced cs) {c : Char} (hc : isBlank c = true → c = ' ')
    (hnext : ∀ d ∈ cs.head?, isBlank c = false ∨ isBlank d = false) : SingleSpaced (c :: cs) :=
  ⟨List.forall_mem_cons.mpr ⟨hc, h.spaces⟩, List.isChain_cons.mpr ⟨hnext, h.apart⟩⟩

theorem cons_unblank (h : SingleSpaced cs) {c : Char} (hc : isBlank c = false) :
    SingleSpaced (c :: cs) :=
  h.cons (by simp [hc]) fun _ _ => .inl hc

theorem cons_space (h : SingleSpaced cs) (hnext : ∀ d ∈ cs.head?, isBlank d = false) :
    SingleSpaced (' ' :: cs) :=
  h.cons (fun _ => rfl) fun d hd => .inr (hnext d hd)

theorem append_unblank (h : SingleSpaced cs) {w : List Char} (hw : ∀ c ∈ w, isBlank c = false) :
    SingleSpaced (w ++ cs) := by
  induction w with
  | nil => exact h
  | cons c w ih =>
    obtain ⟨hc, hrest⟩ := List.forall_mem_cons.mp hw
    exact (ih hrest).cons_unblank hc

end SingleSpaced

theorem singleSpaced_nil : SingleSpaced [] :=
  ⟨by simp, .nil⟩

theorem Collapsed.singleSpaced {cs : List Char} (h : Collapsed cs) : SingleSpaced cs := by
  obtain ⟨ws, hws, rfl⟩ := (collapsed_iff cs).mp h
  clear h
  induction ws with
  | nil => exact singleSpaced_nil
  | cons w ws ih =>
    obtain ⟨hw, hrest⟩ := List.forall_mem_cons.mp hws
    by_cases hnil : ws = []
    · rw [hnil, List.intercalate_singleton, ← List.append_nil w]
      exact singleSpaced_nil.append_unblank hw.unblank
    · rw [List.intercalate_cons_of_ne_nil hnil, List.append_assoc, List.singleton_append]
      exact ((ih hrest).cons_space (unblank_head?_intercalate hrest)).append_unblank hw.unblank

namespace SingleSpaced

variable {cs : List Char}

/-- After the first piece, only the last one can be empty. -/
theorem tail_pieces (h : SingleSpaced cs) : ∃ trail, (∀ w ∈ trail, w = []) ∧
    (pieces isBlank cs).tail =
      (pieces isBlank cs).tail.filter (fun w => !w.isEmpty) ++ trail := by
  induction cs with
  | nil => exact ⟨[], by simp, rfl⟩
  | cons c cs ih =>
    by_cases hc : isBlank c = true
    · rw [pieces, if_pos hc, List.tail_cons]
      cases cs with
      | nil => exact ⟨[[]], by simp, rfl⟩
      | cons d cs =>
        have hd : isBlank d = false := by
          have := (List.isChain_cons.mp h.apart).1 d rfl
          simpa [hc] using this
        obtain ⟨trail, htrail, heq⟩ := ih h.tail
        obtain ⟨w, ws, -, hcons⟩ := exists_pieces_cons hd cs
        rw [hcons] at heq ⊢
        refine ⟨trail, htrail, ?_⟩
        rw [List.filter_cons_of_pos (by simp), List.cons_append]
        exact congrArg _ heq
    · obtain ⟨trail, htrail, heq⟩ := ih h.tail
      obtain ⟨w, ws, hcs, hcons⟩ := exists_pieces_cons (Bool.eq_false_iff.mpr hc) cs
      rw [hcs] at heq
      rw [hcons]
      exact ⟨trail, htrail, heq⟩

/-- A text with single spacing, cut at its spaces: the words, with empty pieces around them. -/
theorem pieces_eq (h : SingleSpaced cs) : ∃ lead trail, (∀ w ∈ lead, w = []) ∧
    (∀ w ∈ trail, w = []) ∧ pieces (· == ' ') cs = lead ++ words cs ++ trail := by
  have hsep : pieces (· == ' ') cs = pieces isBlank cs := by
    refine pieces_congr fun c hc => ?_
    by_cases hblank : isBlank c = true
    · rw [hblank, h.spaces c hc hblank, beq_self_eq_true]
    · rw [Bool.eq_false_iff.mpr hblank]
      refine beq_eq_false_iff_ne.mpr ?_
      rintro rfl
      exact hblank isBlank_space
  obtain ⟨trail, htrail, htail⟩ := h.tail_pieces
  obtain ⟨w, ws, hcs⟩ := List.exists_cons_of_ne_nil (pieces_ne_nil isBlank cs)
  rw [hcs, List.tail_cons] at htail
  rw [hsep, words, hcs]
  cases w with
  | nil => exact ⟨[[]], trail, by simp, htrail, by simpa using htail⟩
  | cons c w =>
    refine ⟨[], trail, by simp, htrail, ?_⟩
    rw [List.filter_cons_of_pos (by simp), List.nil_append, List.cons_append]
    exact congrArg _ htail

end SingleSpaced

/-! ## Trimming -/

/-- A text with single spacing is its words with one space between two, and perhaps a space at an
end. -/
theorem SingleSpaced.eq_intercalate {cs : List Char} (h : SingleSpaced cs) :
    ∃ lead trail, (∀ w ∈ lead, w = []) ∧ (∀ w ∈ trail, w = []) ∧
      [' '].intercalate (lead ++ words cs ++ trail) = cs := by
  obtain ⟨lead, trail, hlead, htrail, hpieces⟩ := h.pieces_eq
  refine ⟨lead, trail, hlead, htrail, ?_⟩
  rw [← hpieces, intercalate_pieces]

theorem SingleSpaced.trimChars_eq {cs : List Char} (h : SingleSpaced cs) :
    trimChars cs = collapseChars cs := by
  obtain ⟨lead, trail, hlead, htrail, hcs⟩ := h.eq_intercalate
  have hwords : ∀ w ∈ words cs, IsWord w := fun w => isWord_of_mem_words
  have htrim := trimChars_intercalate hlead hwords htrail
  rwa [hcs] at htrim

/-! ## Spaces of a collapsed text -/

theorem Collapsed.unblank_head? {cs : List Char} (h : Collapsed cs) :
    ∀ c ∈ cs.head?, isBlank c = false := by
  obtain ⟨ws, hws, rfl⟩ := (collapsed_iff cs).mp h
  exact unblank_head?_intercalate hws

theorem Collapsed.unblank_getLast? {cs : List Char} (h : Collapsed cs) :
    ∀ c ∈ cs.getLast?, isBlank c = false := by
  obtain ⟨ws, hws, rfl⟩ := (collapsed_iff cs).mp h
  exact unblank_getLast?_intercalate hws

/-- Each blank is a space, with a character that is not blank on both sides. -/
def LoneSpaces (cs : List Char) : Prop :=
  ∀ before c after, cs = before ++ c :: after → isBlank c = true →
    c = ' ' ∧ (∃ b ∈ before.getLast?, isBlank b = false) ∧ ∃ a ∈ after.head?, isBlank a = false

theorem Collapsed.loneSpaces {cs : List Char} (h : Collapsed cs) : LoneSpaces cs := by
  rintro before c after rfl hc
  have hspaced := h.singleSpaced
  obtain ⟨-, hafter, hnear⟩ := List.isChain_append.mp hspaced.apart
  refine ⟨hspaced.spaces c (by simp) hc, ?_, ?_⟩
  · -- a blank without anything before it would stand at the start
    cases before using List.reverseRecOn with
    | nil => simp [h.unblank_head? c rfl] at hc
    | append_singleton init b =>
      have hb := hnear b (List.getLast?_concat ..) c rfl
      exact ⟨b, List.getLast?_concat .., hb.resolve_right (by simp [hc])⟩
  · cases after with
    | nil => simp [h.unblank_getLast? c (List.getLast?_concat ..)] at hc
    | cons a after =>
      have ha := (List.isChain_cons.mp hafter).1 a rfl
      exact ⟨a, rfl, ha.resolve_left (by simp [hc])⟩

theorem LoneSpaces.singleSpaced {cs : List Char} (h : LoneSpaces cs) : SingleSpaced cs where
  spaces := by
    intro c hc hblank
    obtain ⟨before, after, rfl⟩ := List.append_of_mem hc
    exact (h before c after rfl hblank).1
  apart := by
    refine List.isChain_iff_forall_rel_of_append_cons_cons.mpr fun a b before after hcs => ?_
    by_cases ha : isBlank a = true
    · obtain ⟨-, -, x, hx, hunblank⟩ := h before a (b :: after) hcs ha
      obtain rfl := Option.some.inj hx
      exact .inr hunblank
    · exact .inl (Bool.eq_false_iff.mpr ha)

theorem collapsed_iff_loneSpaces (cs : List Char) : Collapsed cs ↔ LoneSpaces cs := by
  constructor
  · exact Collapsed.loneSpaces
  · intro h
    have hhead : ∀ c ∈ cs.head?, isBlank c = false := by
      intro c hc
      obtain ⟨rest, rfl⟩ := List.head?_eq_some_iff.mp hc
      refine Bool.eq_false_iff.mpr fun hblank => ?_
      obtain ⟨-, ⟨b, hb, -⟩, -⟩ := h [] c rest rfl hblank
      cases hb
    have hlast : ∀ c ∈ cs.getLast?, isBlank c = false := by
      intro c hc
      obtain ⟨init, rfl⟩ := List.getLast?_eq_some_iff.mp hc
      refine Bool.eq_false_iff.mpr fun hblank => ?_
      obtain ⟨-, -, a, ha, -⟩ := h init c [] rfl hblank
      cases ha
    rw [Collapsed, ← h.singleSpaced.trimChars_eq, trimChars_of_ends hhead hlast]

end CodeAtlas.Text
