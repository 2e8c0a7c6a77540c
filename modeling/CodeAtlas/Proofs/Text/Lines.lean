import CodeAtlas.Proofs.Text.Collapsing

/-!
Lines and the blanks around them.  A trimmed text has no blank at its end (`unblank_getLast?_trimChars`)
and is empty only if there was nothing but blanks (`trimChars_eq_nil_iff`).  The lines of a text are
the stretches between its line feeds, up to a carriage return at the end of a line and an empty last
line (`exists_lines`); whoever trims the lines sees no difference.
-/

namespace CodeAtlas

namespace Text

/-! ## Trimming the end -/

/-- `t` is `s` without the blanks at its end. -/
def TrimsTo (s t : List Char) : Prop :=
  ∃ blanks, s = t ++ blanks ∧ (∀ c ∈ blanks, isBlank c = true) ∧
    ∀ c ∈ t.getLast?, isBlank c = false

theorem trimsTo_dropTrailing (cs : List Char) : TrimsTo cs (dropTrailing isBlank cs) := by
  refine ⟨cs.rtakeWhile isBlank, List.rdropWhile_append_rtakeWhile.symm, ?_, ?_⟩
  · intro c hc
    exact List.mem_rtakeWhile_imp hc
  · intro c hc
    obtain ⟨hne, rfl⟩ := List.mem_getLast?_eq_getLast hc
    exact Bool.eq_false_iff.mpr (List.rdropWhile_last_not isBlank cs hne)

/-- Trimming the end of a text does not touch a beginning that ends in no blank. -/
theorem TrimsTo.starts_iff {s t lead : List Char} (h : TrimsTo s t)
    (hlead : ∀ c ∈ lead.getLast?, isBlank c = false) : lead <+: t ↔ lead <+: s := by
  obtain ⟨blanks, rfl, hblanks, -⟩ := h
  constructor
  · intro hp
    exact hp.trans (List.prefix_append t blanks)
  · intro hp
    rcases List.prefix_or_prefix_of_prefix hp (List.prefix_append t blanks) with hp' | ⟨extra, rfl⟩
    · exact hp'
    · -- What `lead` has beyond `t` is blank, so there is none of it.
      have hextra : extra <+: blanks := (List.prefix_append_right_inj t).mp hp
      rcases List.eq_nil_or_concat extra with rfl | ⟨init, c, rfl⟩
      · simp
      · have hc : isBlank c = true := hblanks c (hextra.subset (by simp))
        rw [hlead c (by simp)] at hc
        cases hc

theorem TrimsTo.eq_nil_iff {s t : List Char} (h : TrimsTo s t) :
    t = [] ↔ ∀ c ∈ s, isBlank c = true := by
  obtain ⟨blanks, rfl, hblanks, hlast⟩ := h
  constructor
  · rintro rfl
    exact hblanks
  · intro hall
    rcases List.eq_nil_or_concat t with rfl | ⟨init, c, rfl⟩
    · rfl
    · have hc := hall c (by simp)
      rw [hlast c (by simp)] at hc
      cases hc

theorem unblank_getLast?_trimChars (cs : List Char) :
    ∀ c ∈ (trimChars cs).getLast?, isBlank c = false := by
  obtain ⟨-, -, -, hlast⟩ := trimsTo_dropTrailing (dropLeading isBlank cs)
  exact hlast

theorem trimChars_eq_nil_iff (cs : List Char) :
    trimChars cs = [] ↔ ∀ c ∈ cs, isBlank c = true := by
  have htrim : TrimsTo (dropLeading isBlank cs) (trimChars cs) := trimsTo_dropTrailing _
  rw [htrim.eq_nil_iff]
  constructor
  · intro hall c hc
    by_contra hblank
    -- the first character that is not blank is still there after the leading blanks
    have hne : dropLeading isBlank cs ≠ [] := by
      intro hnil
      exact hblank (List.dropWhile_eq_nil_iff.mp hnil c hc)
    have hhead : isBlank ((dropLeading isBlank cs).head hne) = false :=
      List.head_dropWhile_not isBlank hne
    rw [hall _ (List.head_mem hne)] at hhead
    cases hhead
  · intro hall c hc
    exact hall c ((List.dropWhile_suffix isBlank).subset hc)

/-! ## Lines -/

theorem trimChars_dropReturn (line : List Char) : trimChars (dropReturn line) = trimChars line := by
  unfold dropReturn
  split
  · rename_i h
    obtain ⟨init, rfl⟩ := List.getLast?_eq_some_iff.mp h
    rw [List.dropLast_concat, trimChars_append_blank init (by decide)]
  · rfl

/-- The lines of a text and its stretches between line feeds. -/
theorem exists_lines (cs : List Char) :
    ∃ init last, cs.splitOn '\n' = init ++ [last] ∧
      lines cs = init.map dropReturn ++ [last].filter (fun line => !line.isEmpty) := by
  have hcut : pieces (· == '\n') cs = cs.splitOn '\n' := pieces_eq_splitOnP _ cs
  obtain ⟨init, last, hsplit⟩ :=
    (List.eq_nil_or_concat (pieces (· == '\n') cs)).resolve_left (pieces_ne_nil _ cs)
  refine ⟨init, last, by rw [← hcut, hsplit, List.concat_eq_append], ?_⟩
  rw [lines, hsplit]
  cases last <;> simp

/-- What holds of an empty line, and of a line with and without a carriage return alike, holds of all
lines if it holds of all stretches between line feeds. -/
theorem all_lines {p : List Char → Bool} (hnil : p [] = true)
    (hreturn : ∀ line, p (dropReturn line) = p line) (cs : List Char) :
    (lines cs).all p = (cs.splitOn '\n').all p := by
  obtain ⟨init, last, hsplit, hlines⟩ := exists_lines cs
  have hended : (init.map dropReturn).all p = init.all p := by
    rw [List.all_map]
    exact congrArg init.all (funext hreturn)
  rw [hlines, hsplit, List.all_append, List.all_append, hended]
  cases last <;> simp [hnil]

theorem trimmed_lines (cs : List Char) :
    ((lines cs).map trimChars).filter (fun line => !line.isEmpty) =
      ((cs.splitOn '\n').filter (fun line => !line.all isBlank)).map trimChars := by
  have hblank : ∀ line : List Char, (!(trimChars line).isEmpty) = !line.all isBlank := by
    intro line
    rw [Bool.not_inj_iff, Bool.eq_iff_iff, List.isEmpty_iff, trimChars_eq_nil_iff, List.all_eq_true]
  obtain ⟨init, last, hsplit, hlines⟩ := exists_lines cs
  have hended : (init.map dropReturn).map trimChars = init.map trimChars := by
    simp only [List.map_map, Function.comp_def, trimChars_dropReturn]
  have hlast : (([last].filter (fun line => !line.isEmpty)).map trimChars).filter
      (fun line => !line.isEmpty) = ([last].map trimChars).filter (fun line => !line.isEmpty) := by
    cases last <;> rfl
  rw [hlines, hsplit, List.map_append, List.filter_append, hended, hlast, ← List.filter_append,
    ← List.map_append, List.filter_map]
  simp only [Function.comp_def, hblank]

theorem splitOn_line {line : List Char} (h : '\n' ∉ line) (rest : List Char) :
    (line ++ '\n' :: rest).splitOn '\n' = line :: rest.splitOn '\n' := by
  have hline : ∀ c ∈ line, (c == '\n') = false := by
    intro c hc
    apply beq_eq_false_iff_ne.mpr
    rintro rfl
    exact h hc
  rw [List.splitOn, List.splitOnP_append_cons line rest (by decide),
    List.splitOnP_eq_singleton hline]
  rfl

end Text

end CodeAtlas
