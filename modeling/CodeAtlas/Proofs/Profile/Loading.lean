import CodeAtlas.Profile.Basic

/-!
What a profile keeps of the definition it was loaded from.  `LoadedFrom` lists it: the names and the
grammars are those of the definition, every extension of its table selects one of the grammars, and
each query was read from a text that is tagged for the language in its first line.
-/

namespace CodeAtlas

theorem exists_of_bind_ok {ε α β : Type} {x : Except ε α} {f : α → Except ε β} {b : β}
    (h : (x >>= f) = .ok b) : ∃ a, x = .ok a ∧ f a = .ok b := by
  cases x with
  | error e => cases h
  | ok a => exact ⟨a, rfl, h⟩

theorem exists_of_map_ok {ε α β : Type} {x : Except ε α} {f : α → β} {b : β}
    (h : x.map f = .ok b) : ∃ a, x = .ok a ∧ f a = b := by
  cases x with
  | error e => cases h
  | ok a => exact ⟨a, rfl, Except.ok.inj h⟩

/-! ## Query texts -/

namespace Asset

/-- The first line of a text tags it for a language. -/
def TaggedFor (language source : String) : Prop :=
  ∃ line, (headerLines source).head? = some line ∧ languageTag? line = some language

theorem of_parse {language : String} {name : QueryName} {source : String} {a : Asset}
    (h : parse language name source = .ok a) :
    a.source = source ∧ TaggedFor language source := by
  unfold parse at h
  dsimp only at h
  split at h
  · cases h
  · rename_i tag htag
    split at h
    · cases h
    · split at h
      · rename_i hlanguage
        obtain rfl := beq_iff_eq.mp hlanguage
        cases h
        obtain ⟨line, hline, hline'⟩ := Option.bind_eq_some_iff.mp htag
        exact ⟨rfl, line, hline, hline'⟩
      · cases h

/-- The name of a query is no text of one. -/
theorem TaggedFor.ne_text {language source : String} (h : TaggedFor language source)
    (name : QueryName) : source ≠ name.text := by
  rintro rfl
  obtain ⟨line, hline, htag⟩ := h
  have hnone : (headerLines name.text).head?.bind languageTag? = none := by
    cases name <;> decide +kernel
  rw [hline, Option.bind_some, htag] at hnone
  cases hnone

end Asset

namespace QuerySet

theorem load_of_ofSources {language : String} {sources : List (QueryName × String)} {q : QuerySet}
    (h : ofSources language sources = .ok q) (name : QueryName) :
    load language sources name = .ok (q.get name) := by
  obtain ⟨structural, hstructural, h⟩ := exists_of_bind_ok h
  obtain ⟨scope, hscope, h⟩ := exists_of_bind_ok h
  obtain ⟨hoverable, hhoverable, h⟩ := exists_of_bind_ok h
  obtain ⟨classes, hclasses, h⟩ := exists_of_bind_ok h
  obtain ⟨methods, hmethods, h⟩ := exists_of_bind_ok h
  obtain ⟨docComment, hdocComment, h⟩ := exists_of_bind_ok h
  obtain ⟨signature, hsignature, h⟩ := exists_of_bind_ok h
  cases h
  cases name with
  | structural => exact hstructural
  | scope => exact hscope
  | hoverable => exact hhoverable
  | classes => exact hclasses
  | methods => exact hmethods
  | docComment => exact hdocComment
  | signature => exact hsignature

theorem taggedFor_of_load {language : String} {sources : List (QueryName × String)}
    {name : QueryName} {a : Asset} (h : load language sources name = .ok a) :
    Asset.TaggedFor language a.source := by
  unfold load at h
  split at h
  · cases h
  · obtain ⟨hsource, htagged⟩ := Asset.of_parse h
    rw [hsource]
    exact htagged

end QuerySet

/-! ## Profiles -/

namespace Profile

/-- What a profile has from its definition. -/
structure LoadedFrom (p : Profile) (d : Definition) : Prop where
  id : p.id = d.id
  aliases : p.aliases = d.aliases
  extensions : p.extensions = d.extensions
  grammars : p.grammars = d.grammars
  table : p.extensionGrammars = d.extensionGrammars
  /-- Every extension of the table selects one of the grammars. -/
  selects : ∀ e ∈ p.extensionGrammars, ∃ g ∈ p.grammars, g.id = e.2
  tagged : ∀ name, Asset.TaggedFor p.id (p.queries.get name).source

theorem selects_of_unknownGrammar? {grammars : List Grammar} {table : List (String × String)}
    (h : unknownGrammar? grammars table = none) : ∀ e ∈ table, ∃ g ∈ grammars, g.id = e.2 := by
  intro e he
  have hknown := List.find?_eq_none.mp h e he
  simpa using hknown

theorem exists_of_ofDefinition {d : Definition} {p : Profile} (h : ofDefinition d = .ok p) :
    unknownGrammar? d.grammars d.extensionGrammars = none ∧
    QuerySet.ofSources d.id d.queries = .ok p.queries ∧
    ∃ first others, d.grammars = first :: others ∧
      p = ⟨d.id, d.aliases, d.extensions, first, others, d.extensionGrammars, d.testRule, p.queries,
        d.taxonomy, d.builtinTypes, d.autoSelect⟩ := by
  unfold ofDefinition at h
  split at h
  · cases h
  · split at h
    · cases h
    · split at h
      · cases h
      · rename_i first others hgrammars
        split at h
        · cases h
        · rename_i htable
          obtain ⟨queries, hqueries, h⟩ := exists_of_bind_ok h
          cases h
          rw [hgrammars]
          exact ⟨htable, hqueries, first, others, rfl, rfl⟩

theorem loadedFrom_of_ofDefinition {d : Definition} {p : Profile} (h : ofDefinition d = .ok p) :
    p.LoadedFrom d := by
  obtain ⟨htable, hqueries, first, others, hgrammars, hp⟩ := exists_of_ofDefinition h
  rw [hp]
  exact {
    id := rfl
    aliases := rfl
    extensions := rfl
    grammars := hgrammars.symm
    table := rfl
    selects := by
      rw [hgrammars] at htable
      exact selects_of_unknownGrammar? htable
    tagged := fun name =>
      QuerySet.taggedFor_of_load (QuerySet.load_of_ofSources hqueries name) }

end Profile

end CodeAtlas
