import CodeAtlas.Text.Words
import Mathlib.Data.List.DropRight

/-!
Words, collapsed texts and trimming.  The words of a text are its runs between blanks; runs between
other separators have the same laws (`runs_append_sep`, `runs_intercalate`).  A text is *collapsed* if
it is its own collapse; these are the texts made of words with one space between two
(`collapsed_iff`).  Collapsing keeps the words, so it is idempotent, and a collapsed text has no blank
at either end.

    words (collapseChars cs) = words cs      (words_collapseChars)
-/

namespace CodeAtlas.Text

/-! ## Pieces -/

theorem pieces_eq_splitOnP (sep : Char → Bool) (cs : List Char) :
    pieces sep cs = cs.splitOnP sep := by
  induction cs with
  | nil => rfl
  | cons c cs ih =>
    rw [List.splitOnP_cons_eq_if_modifyHead, pieces, ih]
    split
    · rfl
    · cases h : cs.splitOnP sep with
      | nil => exact absurd h (List.splitOnP_ne_nil sep cs)
      | cons w ws => rfl

theorem pieces_ne_nil (sep : Char → Bool) (cs : List Char) : pieces sep cs ≠ [] := by
  rw [pieces_eq_splitOnP]
  exact List.splitOnP_ne_nil sep cs

theorem pieces_congr {sep sep' : Char → Bool} {cs : List Char} (h : ∀ c ∈ cs, sep c = sep' c) :
    pieces sep cs = pieces sep' cs := by
  induction cs with
  | nil => rfl
  | cons c cs ih =>
    rw [pieces, pieces, h c List.mem_cons_self, ih fun x hx => h x (List.mem_cons_of_mem c hx)]

theorem exists_pieces_cons {sep : Char → Bool} {c : Char} (hc : sep c = false) (cs : List Char) :
    ∃ w ws, pieces sep cs = w :: ws ∧ pieces sep (c :: cs) = (c :: w) :: ws := by
  obtain ⟨w, ws, h⟩ := List.exists_cons_of_ne_nil (pieces_ne_nil sep cs)
  refine ⟨w, ws, h, ?_⟩
  rw [pieces, hc, h]
  rfl

theorem intercalate_pieces (sep : Char) (cs : List Char) :
    [sep].intercalate (pieces (· == sep) cs) = cs := by
  rw [pieces_eq_splitOnP]
  exact List.intercalate_splitOn sep

/-- A piece is a part of the text, and the first one stands at its start. -/
theorem prefix_of_pieces {sep : Char → Bool} {cs w : List Char} {ws : List (List Char)}
    (h : pieces sep cs = w :: ws) : w <+: cs ∧ ∀ piece ∈ ws, piece <:+: cs := by
  induction cs generalizing w ws with
  | nil =>
    cases h
    exact ⟨List.nil_prefix, by simp⟩
  | cons c cs ih =>
    by_cases hc : sep c = true
    · rw [pieces, if_pos hc] at h
      obtain ⟨rfl, rfl⟩ := List.cons.inj h
      refine ⟨List.nil_prefix, fun piece hpiece => ?_⟩
      obtain ⟨first, rest, hcs⟩ := List.exists_cons_of_ne_nil (pieces_ne_nil sep cs)
      obtain ⟨hfirst, hrest⟩ := ih hcs
      rw [hcs] at hpiece
      rcases List.mem_cons.mp hpiece with rfl | hmem
      · exact hfirst.isInfix.trans (List.suffix_cons c cs).isInfix
      · exact (hrest piece hmem).trans (List.suffix_cons c cs).isInfix
    · obtain ⟨first, rest, hcs, hcons⟩ := exists_pieces_cons (Bool.eq_false_iff.mpr hc) cs
      obtain ⟨rfl, rfl⟩ := List.cons.inj (hcons.symm.trans h)
      obtain ⟨hfirst, hrest⟩ := ih hcs
      refine ⟨(List.prefix_cons_inj c).mpr hfirst, fun piece hpiece => ?_⟩
      exact (hrest piece hpiece).trans (List.suffix_cons c cs).isInfix

theorem infix_of_mem_pieces {sep : Char → Bool} {cs w : List Char} (h : w ∈ pieces sep cs) :
    w <:+: cs := by
  obtain ⟨first, rest, hcs⟩ := List.exists_cons_of_ne_nil (pieces_ne_nil sep cs)
  obtain ⟨hfirst, hrest⟩ := prefix_of_pieces hcs
  rw [hcs] at h
  rcases List.mem_cons.mp h with rfl | hmem
  · exact hfirst.isInfix
  · exact hrest w hmem

theorem not_sep_of_mem_pieces {sep : Char → Bool} {cs w : List Char} (h : w ∈ pieces sep cs) :
    ∀ c ∈ w, sep c = false := by
  induction cs generalizing w with
  | nil =>
    obtain rfl := List.mem_singleton.mp h
    simp
  | cons c cs ih =>
    by_cases hc : sep c = true
    · rw [pieces, if_pos hc] at h
      rcases List.mem_cons.mp h with rfl | hmem
      · simp
      · exact ih hmem
    · obtain ⟨first, rest, hcs, hcons⟩ := exists_pieces_cons (Bool.eq_false_iff.mpr hc) cs
      rw [hcons] at h
      rcases List.mem_cons.mp h with rfl | hmem
      · intro x hx
        rcases List.mem_cons.mp hx with rfl | hx
        · exact Bool.eq_false_iff.mpr hc
        · exact ih (hcs ▸ List.mem_cons_self) x hx
      · exact ih (hcs ▸ List.mem_cons_of_mem first hmem)

/-! ## Runs -/

/-- The maximal runs of characters that are no separators. -/
def runs (sep : Char → Bool) (cs : List Char) : List (List Char) :=
  (pieces sep cs).filter (fun w => !w.isEmpty)

theorem of_mem_runs {sep : Char → Bool} {cs w : List Char} (h : w ∈ runs sep cs) :
    w ≠ [] ∧ ∀ c ∈ w, sep c = false := by
  obtain ⟨hpiece, hne⟩ := List.mem_filter.mp h
  exact ⟨by simpa using hne, not_sep_of_mem_pieces hpiece⟩

theorem runs_of_no_sep {sep : Char → Bool} {cs : List Char} (h : ∀ c ∈ cs, sep c = false) :
    runs sep cs = if cs.isEmpty then [] else [cs] := by
  rw [runs, pieces_eq_splitOnP, List.splitOnP_eq_singleton h]
  cases cs <;> rfl

theorem runs_append_sep {sep : Char → Bool} (cs : List Char) {b : Char} (hb : sep b = true)
    (rest : List Char) : runs sep (cs ++ b :: rest) = runs sep cs ++ runs sep rest := by
  simp only [runs, pieces_eq_splitOnP]
  rw [List.splitOnP_append_cons cs rest hb, List.filter_append]

theorem runs_append_seps {sep : Char → Bool} {seps : List Char} (h : ∀ c ∈ seps, sep c = true)
    (rest : List Char) : runs sep (seps ++ rest) = runs sep rest := by
  induction seps with
  | nil => rfl
  | cons c seps ih =>
    obtain ⟨hc, hseps⟩ := List.forall_mem_cons.mp h
    rw [List.cons_append, ← ih hseps]
    exact runs_append_sep [] hc _

theorem runs_intercalate {sep : Char → Bool} {seps : List Char} (hne : seps ≠ [])
    (hseps : ∀ c ∈ seps, sep c = true) (ps : List (List Char)) :
    runs sep (seps.intercalate ps) = ps.flatMap (runs sep) := by
  induction ps with
  | nil => rfl
  | cons w ps ih =>
    by_cases hnil : ps = []
    · rw [hnil, List.intercalate_singleton, List.flatMap_singleton]
    · obtain ⟨b, bs, rfl⟩ := List.exists_cons_of_ne_nil hne
      obtain ⟨hb, hbs⟩ := List.forall_mem_cons.mp hseps
      rw [List.intercalate_cons_of_ne_nil hnil, List.append_assoc, List.cons_append,
        runs_append_sep w hb, runs_append_seps hbs, ih, List.flatMap_cons]

theorem flatMap_runs {sep : Char → Bool} {ws : List (List Char)}
    (h : ∀ w ∈ ws, w ≠ [] ∧ ∀ c ∈ w, sep c = false) : ws.flatMap (runs sep) = ws := by
  induction ws with
  | nil => rfl
  | cons w ws ih =>
    obtain ⟨⟨hne, hw⟩, hws⟩ := List.forall_mem_cons.mp h
    rw [List.flatMap_cons, ih hws, runs_of_no_sep hw, if_neg (by simpa using hne)]
    rfl

/-! ## Words -/

/-- Some characters, none of them blank. -/
structure IsWord (w : List Char) : Prop where
  ne_nil : w ≠ []
  unblank : ∀ c ∈ w, isBlank c = false

theorem words_eq_runs (cs : List Char) : words cs = runs isBlank cs := rfl

theorem isWord_of_mem_words {cs w : List Char} (h : w ∈ words cs) : IsWord w := by
  rw [words_eq_runs] at h
  obtain ⟨hne, hunblank⟩ := of_mem_runs h
  exact ⟨hne, hunblank⟩

theorem words_of_unblank {cs : List Char} (h : ∀ c ∈ cs, isBlank c = false) :
    words cs = if cs.isEmpty then [] else [cs] :=
  runs_of_no_sep h

theorem words_append_blank (cs : List Char) {b : Char} (hb : isBlank b = true) (rest : List Char) :
    words (cs ++ b :: rest) = words cs ++ words rest :=
  runs_append_sep cs hb rest

theorem words_intercalate_words {ws : List (List Char)} (h : ∀ w ∈ ws, IsWord w) :
    words ([' '].intercalate ws) = ws := by
  rw [words_eq_runs, runs_intercalate (by simp) (List.forall_mem_singleton.mpr isBlank_space)]
  exact flatMap_runs fun w hw => ⟨(h w hw).ne_nil, (h w hw).unblank⟩

theorem words_collapseChars (cs : List Char) : words (collapseChars cs) = words cs :=
  words_intercalate_words fun _ => isWord_of_mem_words

/-! ## Collapsed texts -/

/-- A text that collapsing leaves as it is. -/
def Collapsed (cs : List Char) : Prop :=
  collapseChars cs = cs

theorem collapsed_collapseChars (cs : List Char) : Collapsed (collapseChars cs) := by
  unfold Collapsed
  rw [collapseChars, words_collapseChars]
  rfl

theorem collapsed_collapse (s : String) : Collapsed (collapse s).toList := by
  rw [collapse, String.toList_ofList]
  exact collapsed_collapseChars _

theorem collapse_eq_self_iff {s : String} : collapse s = s ↔ Collapsed s.toList := by
  constructor
  · intro h
    rw [← h]
    exact collapsed_collapse s
  · intro h
    rw [collapse, h, String.ofList_toList]

theorem collapsed_intercalate {ws : List (List Char)} (h : ∀ w ∈ ws, IsWord w) :
    Collapsed ([' '].intercalate ws) := by
  unfold Collapsed
  rw [collapseChars, words_intercalate_words h]

theorem collapsed_iff (cs : List Char) :
    Collapsed cs ↔ ∃ ws, (∀ w ∈ ws, IsWord w) ∧ cs = [' '].intercalate ws := by
  constructor
  · intro h
    exact ⟨words cs, fun _ => isWord_of_mem_words, h.symm⟩
  · rintro ⟨ws, hws, rfl⟩
    exact collapsed_intercalate hws

/-! ## Trimming -/

theorem trimChars_part (cs : List Char) : trimChars cs <:+: cs :=
  (List.rdropWhile_prefix isBlank _).isInfix.trans (List.dropWhile_suffix isBlank).isInfix

theorem trimChars_cons_blank {b : Char} (hb : isBlank b = true) (cs : List Char) :
    trimChars (b :: cs) = trimChars cs := by
  rw [trimChars, trimChars, dropLeading, List.dropWhile_cons_of_pos hb]
  rfl

theorem trimChars_append_blank (cs : List Char) {b : Char} (hb : isBlank b = true) :
    trimChars (cs ++ [b]) = trimChars cs := by
  rw [trimChars, trimChars, dropLeading, dropLeading, List.dropWhile_append]
  split
  · rename_i hempty
    rw [List.isEmpty_iff.mp hempty, List.dropWhile_cons_of_pos hb]
    rfl
  · exact List.rdropWhile_concat_pos isBlank _ b hb

theorem trimChars_of_ends {cs : List Char} (hhead : ∀ c ∈ cs.head?, isBlank c = false)
    (hlast : ∀ c ∈ cs.getLast?, isBlank c = false) : trimChars cs = cs := by
  have hleading : dropLeading isBlank cs = cs := by
    cases cs with
    | nil => rfl
    | cons c cs => exact List.dropWhile_cons_of_neg (by simp [hhead c rfl])
  rw [trimChars, hleading]
  refine List.rdropWhile_eq_self_iff.mpr fun hne => ?_
  simp [hlast _ (List.getLast?_eq_some_getLast hne)]

theorem intercalate_append (sep : List Char) {xs ys : List (List Char)} (hx : xs ≠ [])
    (hy : ys ≠ []) :
    sep.intercalate (xs ++ ys) = sep.intercalate xs ++ sep ++ sep.intercalate ys := by
  induction xs with
  | nil => exact absurd rfl hx
  | cons x xs ih =>
    cases xs with
    | nil =>
      rw [List.singleton_append, List.intercalate_cons_of_ne_nil hy, List.intercalate_singleton]
    | cons x' xs =>
      rw [List.cons_append, List.intercalate_cons_of_ne_nil (by simp), ih (by simp),
        List.intercalate_cons_cons]
      simp only [List.append_assoc]

theorem unblank_head?_intercalate {ws : List (List Char)} (h : ∀ w ∈ ws, IsWord w) :
    ∀ c ∈ ([' '].intercalate ws).head?, isBlank c = false := by
  cases ws with
  | nil => simp
  | cons w ws =>
    have hw := h w List.mem_cons_self
    have hhead : ([' '].intercalate (w :: ws)).head? = w.head? := by
      cases ws with
      | nil => rw [List.intercalate_singleton]
      | cons v ws =>
        rw [List.intercalate_cons_cons, List.append_assoc, List.head?_append_of_ne_nil _ hw.ne_nil]
    intro c hc
    rw [hhead] at hc
    exact hw.unblank c (List.mem_of_mem_head? hc)

theorem unblank_getLast?_intercalate {ws : List (List Char)} (h : ∀ w ∈ ws, IsWord w) :
    ∀ c ∈ ([' '].intercalate ws).getLast?, isBlank c = false := by
  rcases List.eq_nil_or_concat ws with rfl | ⟨init, w, rfl⟩
  · simp
  · have hw := h w (by simp)
    have hlast : ([' '].intercalate (init ++ [w])).getLast? = w.getLast? := by
      by_cases hinit : init = []
      · rw [hinit, List.nil_append, List.intercalate_singleton]
      · rw [intercalate_append [' '] hinit (by simp), List.intercalate_singleton,
          List.getLast?_append_of_ne_nil _ hw.ne_nil]
    intro c hc
    rw [List.concat_eq_append, hlast] at hc
    exact hw.unblank c (List.mem_of_mem_getLast? hc)

theorem Collapsed.trimChars_eq {cs : List Char} (h : Collapsed cs) : trimChars cs = cs := by
  obtain ⟨ws, hws, rfl⟩ := (collapsed_iff cs).mp h
  exact trimChars_of_ends (unblank_head?_intercalate hws) (unblank_getLast?_intercalate hws)

/-- Trimming words that are joined by spaces, with some empty pieces around them. -/
theorem trimChars_intercalate {lead ws trail : List (List Char)} (hlead : ∀ w ∈ lead, w = [])
    (hws : ∀ w ∈ ws, IsWord w) (htrail : ∀ w ∈ trail, w = []) :
    trimChars ([' '].intercalate (lead ++ ws ++ trail)) = [' '].intercalate ws := by
  induction lead with
  | cons w lead ih =>
    obtain ⟨rfl, hrest⟩ := List.forall_mem_cons.mp hlead
    rw [← ih hrest, List.cons_append, List.cons_append]
    by_cases hnil : lead ++ ws ++ trail = []
    · rw [hnil, List.intercalate_singleton, List.intercalate_nil]
    · rw [List.intercalate_cons_of_ne_nil hnil]
      exact trimChars_cons_blank isBlank_space _
  | nil =>
    rw [List.nil_append]
    induction trail using List.reverseRecOn with
    | nil =>
      rw [List.append_nil]
      exact (collapsed_intercalate hws).trimChars_eq
    | append_singleton trail w ih =>
      obtain ⟨hinit, hlast⟩ := List.forall_mem_append.mp htrail
      obtain rfl := hlast w List.mem_cons_self
      rw [← ih hinit, ← List.append_assoc]
      by_cases hnil : ws ++ trail = []
      · rw [hnil, List.nil_append, List.intercalate_singleton, List.intercalate_nil]
      · rw [intercalate_append [' '] hnil (by simp), List.intercalate_singleton, List.append_nil]
        exact trimChars_append_blank _ isBlank_space

end CodeAtlas.Text
