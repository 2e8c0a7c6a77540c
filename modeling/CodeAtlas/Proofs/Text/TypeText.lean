import CodeAtlas.Proofs.Text.Collapsing
import CodeAtlas.Text.Annotation

/-!
Types with and without their annotation.  A grammar hands a type over bare, or after the colon or the
arrow that announces it, and the type text should be the same in all three cases:

    T          : T          -> T

It is the same after a colon and after an arrow, whatever the type starts with.  A bare type loses the
colons at its start, so it stays itself exactly if it is no path from the global scope
(`annotation_shows_iff`).
-/

namespace CodeAtlas.Text

theorem startsWith_eq_true_iff (lead s : String) :
    startsWith lead s = true ↔ ∃ rest, s.toList = lead.toList ++ rest := by
  rw [startsWith, isSome_stripLead?_iff]
  constructor
  · rintro ⟨rest, h⟩
    exact ⟨rest, h.symm⟩
  · rintro ⟨rest, h⟩
    exact ⟨rest, h.symm⟩

theorem Collapsed.after_word {mark cs : List Char} (h : Collapsed cs) (hne : cs ≠ [])
    (hmark : IsWord mark) : Collapsed (mark ++ ' ' :: cs) := by
  have hwords : words cs ≠ [] := by
    intro hnil
    rw [Collapsed, collapseChars, hnil] at h
    exact hne h.symm
  have hfirst : words mark = [mark] := by
    rw [words_of_unblank hmark.unblank, if_neg (by simpa using hmark.ne_nil)]
  unfold Collapsed collapseChars
  rw [words_append_blank mark isBlank_space, hfirst, intercalate_append [' '] (by simp) hwords,
    List.intercalate_singleton, List.append_assoc, List.singleton_append]
  exact congrArg (fun rest => mark ++ ' ' :: rest) h

/-! ## Annotations -/

theorem isWord_colon : IsWord [':'] where
  ne_nil := by simp
  unblank := List.forall_mem_singleton.mpr (by decide)

theorem isWord_arrow : IsWord ['-', '>'] where
  ne_nil := by simp
  unblank := List.forall_mem_cons.mpr ⟨by decide, List.forall_mem_singleton.mpr (by decide)⟩

theorem dropArrows_of_no_arrow {cs : List Char} (h : ∀ rest, cs ≠ '-' :: '>' :: rest) :
    dropArrows cs = cs := by
  unfold dropArrows
  split
  · rename_i rest
    exact absurd rfl (h rest)
  · rfl

theorem bareType_after_colon {cs : List Char} (h : Collapsed cs) :
    bareType (':' :: ' ' :: cs) = cs := by
  have hleading : dropLeading (· == ':') (':' :: ' ' :: cs) = ' ' :: cs := by
    rw [dropLeading, List.dropWhile_cons_of_pos (by decide), List.dropWhile_cons_of_neg (by decide)]
  rw [bareType, dropArrows_of_no_arrow (by simp), hleading, trimChars_cons_blank isBlank_space,
    h.trimChars_eq]

theorem bareType_after_arrow {cs : List Char} (h : Collapsed cs) :
    bareType ('-' :: '>' :: ' ' :: cs) = cs := by
  have hleading : dropLeading (· == ':') (' ' :: cs) = ' ' :: cs :=
    List.dropWhile_cons_of_neg (by decide)
  rw [bareType, dropArrows, dropArrows_of_no_arrow (by simp), hleading,
    trimChars_cons_blank isBlank_space, h.trimChars_eq]

/-- What a bare type keeps: everything, unless it starts with a colon. -/
theorem bareType_eq_self_iff {cs : List Char} (h : Collapsed cs)
    (harrow : ∀ rest, cs ≠ '-' :: '>' :: rest) : bareType cs = cs ↔ cs.head? ≠ some ':' := by
  rw [bareType, dropArrows_of_no_arrow harrow]
  constructor
  · intro hself hhead
    obtain ⟨rest, rfl⟩ := List.head?_eq_some_iff.mp hhead
    -- what is left lies in the text after the first colon, so it is too short
    have hdrop : dropLeading (· == ':') (':' :: rest) <:+ rest := by
      rw [dropLeading, List.dropWhile_cons_of_pos (by decide)]
      exact List.dropWhile_suffix _
    have hlength := ((trimChars_part _).trans hdrop.isInfix).length_le
    rw [hself, List.length_cons] at hlength
    omega
  · intro hhead
    have hleading : dropLeading (· == ':') cs = cs := by
      cases cs with
      | nil => rfl
      | cons c cs => exact List.dropWhile_cons_of_neg (by simpa using hhead)
    rw [hleading, h.trimChars_eq]

theorem typeText?_eq_some_iff {s t : String} (hs : Collapsed s.toList) (ht : t.toList ≠ []) :
    typeText? s = some t ↔ bareType s.toList = t.toList := by
  unfold typeText?
  rw [hs]
  dsimp only
  split
  · rename_i hempty
    rw [List.isEmpty_iff.mp hempty]
    exact iff_of_false (by simp) (Ne.symm ht)
  · rw [Option.some.injEq, ← String.toList_inj, String.toList_ofList]

/-- **When the annotation of a type shows.**  Take any type text that is collapsed, has characters and
starts neither with an arrow nor with a single colon.  After a colon and after an arrow the type text
is this text.  Bare it is this text if and only if it does not start with two colons: those are taken
for annotation and dropped. -/
theorem annotation_shows_iff {t : String} (hne : t.toList ≠ []) (hcollapsed : collapse t = t)
    (harrow : startsWith "->" t = false)
    (hcolon : startsWith ":" t = true → startsWith "::" t = true) :
    typeText? (": " ++ t) = some t ∧ typeText? ("-> " ++ t) = some t ∧
      (typeText? t = some t ↔ startsWith "::" t = false) := by
  have ht : Collapsed t.toList := by
    unfold Collapsed
    rw [← String.toList_ofList (l := collapseChars t.toList)]
    exact congrArg String.toList hcollapsed
  have hbare : ∀ rest, t.toList ≠ '-' :: '>' :: rest := by
    intro rest h
    rw [(startsWith_eq_true_iff "->" t).mpr ⟨rest, h⟩] at harrow
    cases harrow
  refine ⟨?_, ?_, ?_⟩
  · have hlist : (": " ++ t).toList = [':'] ++ ' ' :: t.toList := by simp
    rw [typeText?_eq_some_iff _ hne, hlist]
    · exact bareType_after_colon ht
    · rw [hlist]
      exact ht.after_word hne isWord_colon
  · have hlist : ("-> " ++ t).toList = ['-', '>'] ++ ' ' :: t.toList := by simp
    rw [typeText?_eq_some_iff _ hne, hlist]
    · exact bareType_after_arrow ht
    · rw [hlist]
      exact ht.after_word hne isWord_arrow
  · rw [typeText?_eq_some_iff ht hne, bareType_eq_self_iff ht hbare, ← Bool.not_eq_true]
    refine not_congr ⟨fun hhead => ?_, fun hdouble => ?_⟩
    · obtain ⟨rest, hrest⟩ := List.head?_eq_some_iff.mp hhead
      exact hcolon ((startsWith_eq_true_iff ":" t).mpr ⟨rest, hrest⟩)
    · obtain ⟨rest, hrest⟩ := (startsWith_eq_true_iff "::" t).mp hdouble
      rw [hrest]
      rfl

theorem annotation_shows_iff_generic :
    startsWith "->" "std::map<K, V>" = false ∧
    typeText? ": std::map<K, V>" = some "std::map<K, V>" ∧
    typeText? "-> std::map<K, V>" = some "std::map<K, V>" ∧
    typeText? "std::map<K, V>" = some "std::map<K, V>" := by
  have harrow : startsWith "->" "std::map<K, V>" = false := by decide
  have hcolon : startsWith ":" "std::map<K, V>" = false := by decide
  have hdouble : startsWith "::" "std::map<K, V>" = false := by decide
  obtain ⟨hcolon', harrow', hbare⟩ := annotation_shows_iff (t := "std::map<K, V>") (by decide)
    (by decide) harrow (by simp [hcolon])
  exact ⟨harrow, hcolon', harrow', hbare.mpr hdouble⟩

/-- A path from the global scope is the same type after a colon and after an arrow, and another one
bare. -/
theorem global_path_loses_colons :
    collapse "::std::string::String" = "::std::string::String" ∧
    startsWith "->" "::std::string::String" = false ∧
    startsWith "::" "::std::string::String" = true ∧
    typeText? ": ::std::string::String" = some "::std::string::String" ∧
    typeText? "-> ::std::string::String" = some "::std::string::String" ∧
    typeText? "::std::string::String" = some "std::string::String" := by
  decide

end CodeAtlas.Text
