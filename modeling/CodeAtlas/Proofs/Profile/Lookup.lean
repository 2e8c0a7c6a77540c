import CodeAtlas.Proofs.Profile.Loading

/-!
The grammars of a profile, looked up.  A key selects a grammar by its id, by an extension of the
table or as a name of the language (`Answers`).  Of the grammars with one id only the first is ever
found, and a path has one of these (`grammarById?_grammarForPath`).
-/

namespace CodeAtlas

namespace Profile

/-- A key without the dots it starts with. -/
def bareKey (key : String) : String :=
  String.ofList (key.toList.dropWhile (· == '.'))

theorem bareKey_of_undotted {key : String} (h : key.toList.head? ≠ some '.') : bareKey key = key := by
  have hkeep : key.toList.dropWhile (· == '.') = key.toList := by
    cases hcs : key.toList with
    | nil => rfl
    | cons c cs =>
      have hc : ¬ (c == '.') = true := by
        intro hc
        rw [hcs, List.head?_cons, beq_iff_eq.mp hc] at h
        exact h rfl
      exact List.dropWhile_cons_of_neg hc
  unfold bareKey
  rw [hkeep, String.ofList_toList]

/-- A name of the language that is none of its grammars: an extension, its id or an alias. -/
def GoesBy (p : Profile) (key : String) : Prop :=
  (∃ e ∈ p.extensionGrammars, Text.sameIgnoringCase e.1 key = true) ∨
    (∃ e ∈ p.extensions, Text.sameIgnoringCase e key = true) ∨ p.id = key ∨ key ∈ p.aliases

theorem grammarById?_some {p : Profile} {id : String} {g : Grammar}
    (h : p.grammarById? id = some g) : g ∈ p.grammars ∧ g.id = id :=
  ⟨List.mem_of_find?_eq_some h, by simpa using List.find?_some h⟩

theorem grammarById?_eq_none_iff (p : Profile) (id : String) :
    p.grammarById? id = none ↔ ∀ g ∈ p.grammars, g.id ≠ id := by
  unfold grammarById?
  rw [List.find?_eq_none]
  simp

theorem grammarById?_default (p : Profile) :
    p.grammarById? p.defaultGrammar.id = some p.defaultGrammar :=
  List.find?_cons_of_pos (beq_iff_eq.mpr rfl)

/-- The ways in which a profile answers for a key. -/
inductive Answers (p : Profile) (key : String) : Option Grammar → Prop where
  | byId {g : Grammar} (h : p.grammarById? key = some g) : Answers p key (some g)
  /-- An extension of the table selects a grammar. -/
  | selected {g : Grammar} {id : String} (hnone : p.grammarById? key = none) (hname : p.GoesBy key)
      (h : p.grammarById? id = some g) : Answers p key (some g)
  | default (hnone : p.grammarById? key = none) (hname : p.GoesBy key) :
      Answers p key (some p.defaultGrammar)
  | nothing (hnone : p.grammarById? key = none) (hname : ¬ p.GoesBy key) : Answers p key none

theorem answers_grammar? {d : Definition} {p : Profile} (hp : p.LoadedFrom d) (key : String) :
    Answers p (bareKey key) (p.grammar? key) := by
  have hkey : String.ofList (key.toList.dropWhile (· == '.')) = bareKey key := rfl
  simp only [Profile.grammar?, hkey]
  generalize bareKey key = key
  cases hid : p.grammarById? key with
  | some g => exact .byId hid
  | none =>
    dsimp only
    cases htable : p.extensionGrammars.find? (fun e => Text.sameIgnoringCase e.1 key) with
    | some e =>
      have hmem := List.mem_of_find?_eq_some htable
      have hname : p.GoesBy key := Or.inl ⟨e, hmem, by simpa using List.find?_some htable⟩
      obtain ⟨g, hg, hge⟩ := hp.selects e hmem
      dsimp only
      cases hselected : p.grammarById? e.2 with
      | none => exact absurd hge ((grammarById?_eq_none_iff p e.2).mp hselected g hg)
      | some g => exact .selected hid hname hselected
    | none =>
      dsimp only
      split
      · rename_i hname
        refine .default hid (Or.inr ?_)
        simpa [or_assoc] using hname
      · rename_i hname
        refine .nothing hid ?_
        rintro (⟨e, he, hsame⟩ | hother)
        · exact List.find?_eq_none.mp htable e he hsame
        · refine hname ?_
          simpa [or_assoc] using hother

/-- Whatever a profile answers with, it finds by its id. -/
theorem Answers.grammarById? {p : Profile} {key : String} {g : Grammar}
    (h : Answers p key (some g)) : p.grammarById? g.id = some g := by
  cases h with
  | byId h => rwa [(grammarById?_some h).2]
  | selected _ _ h => rwa [(grammarById?_some h).2]
  | default => exact p.grammarById?_default

/-- The profile has no grammar for a key if and only if the key is neither the id of one of its
grammars nor another name of the language. -/
theorem Answers.eq_none_iff {p : Profile} {key : String} {answer : Option Grammar}
    (h : Answers p key answer) :
    answer = none ↔ (∀ g ∈ p.grammars, g.id ≠ key) ∧ ¬ p.GoesBy key := by
  rw [← grammarById?_eq_none_iff]
  cases h with
  | byId h => simp [h]
  | selected _ hname _ => simp [hname]
  | default _ hname => simp [hname]
  | nothing hnone hname => simp [hnone, hname]

/-- The answer has the key for its id if and only if some grammar has. -/
theorem Answers.id_eq_iff {p : Profile} {key : String} {g : Grammar}
    (h : Answers p key (some g)) : g.id = key ↔ ∃ g' ∈ p.grammars, g'.id = key := by
  have hmem := (grammarById?_some h.grammarById?).1
  refine ⟨fun hid => ⟨g, hmem, hid⟩, ?_⟩
  rintro ⟨g', hg', hid⟩
  have hsome : p.grammarById? key ≠ none := fun hnone =>
    (grammarById?_eq_none_iff p key).mp hnone g' hg' hid
  cases h with
  | byId h => exact (grammarById?_some h).2
  | selected hnone _ _ => exact absurd hnone hsome
  | default hnone _ => exact absurd hnone hsome

theorem grammarById?_grammarForPath {d : Definition} {p : Profile} (hp : p.LoadedFrom d)
    (path : String) :
    p.grammarById? (p.grammarForPath path).id = some (p.grammarForPath path) := by
  unfold grammarForPath
  cases hfound : (PathName.extension? path).bind p.grammar? with
  | none => exact p.grammarById?_default
  | some g =>
    obtain ⟨extension, -, hg⟩ := Option.bind_eq_some_iff.mp hfound
    have hanswers := answers_grammar? hp extension
    rw [hg] at hanswers
    exact hanswers.grammarById?

theorem grammar?_of_grammarById? {p : Profile} {g : Grammar} (h : p.grammarById? g.id = some g)
    (hdot : g.id.toList.head? ≠ some '.') : p.grammar? g.id = some g := by
  have hkey : String.ofList (g.id.toList.dropWhile (· == '.')) = g.id := bareKey_of_undotted hdot
  simp only [Profile.grammar?, hkey, h]

end Profile

end CodeAtlas
