import CodeAtlas.Entity.Structure
import CodeAtlas.Proofs.Forest.Assembly
import CodeAtlas.Proofs.Profile.Loading
import CodeAtlas.Proofs.Text.BareType
import CodeAtlas.Proofs.Text.BaseList
import CodeAtlas.Proofs.Text.LineBreaks
import CodeAtlas.Query.Interpreter

/-!
The texts of entities.  Whatever the source says, a name and a type are collapsed, a type is not empty,
and a reference has no blank but the space (`Facts.Tidy`).  The texts of a candidate stay so with every
capture that is added, and an entity says what its candidate said:

    captures of a match  →  Candidate.Tidy  →  forest  →  Facts.Tidy      (tidy_of_structured)

So no text of an entity has a line break of any kind, and collapsing changes no name and no type
(`structured_texts_collapsed`).
-/

namespace CodeAtlas

open Text

/-! ## Texts of a heritage clause -/

namespace Text

theorem onlySpaces_of_toList {s : String} {parts : List (List Char)}
    (hs : s.toList = ", ".toList.intercalate parts)
    (h : ∀ part ∈ parts, ∀ c ∈ part, isBlank c = true → c = ' ') : OnlySpaces s := by
  intro c hc hblank
  rw [hs] at hc
  rcases mem_intercalate hc with hsep | ⟨part, hpart, hmem⟩
  · have hcases : c = ',' ∨ c = ' ' := by simpa using hsep
    rcases hcases with rfl | rfl
    · exact absurd hblank (by decide)
    · rfl
  · exact h part hpart c hmem hblank

theorem onlySpaces_of_bases? {s r : String} (h : bases? s = some r) : OnlySpaces r :=
  onlySpaces_of_toList (toList_of_bases? h) fun _ hb =>
    (collapsed_of_mem_heritageBases hb).1.singleSpaced.spaces

theorem onlySpaces_join {parts : List String} (h : ∀ t ∈ parts, OnlySpaces t) :
    OnlySpaces (", ".intercalate parts) := by
  have hchars : ∀ cs ∈ parts.map String.toList, ∀ c ∈ cs, isBlank c = true → c = ' ' := by
    rw [List.forall_mem_map]
    exact h
  exact onlySpaces_of_toList String.toList_intercalate hchars

theorem Collapsed.onlySpaces {s : String} (h : Collapsed s.toList) : OnlySpaces s :=
  h.singleSpaced.spaces

end Text

/-! ## Candidates -/

namespace Candidate

/-- The texts of a candidate are as structuring writes them. -/
structure Tidy (c : Candidate) : Prop where
  name : ∀ t, c.name = some t → Collapsed t.toList
  declaredType : ∀ t, c.declaredType = some t → Collapsed t.toList ∧ t ≠ ""
  returnType : ∀ t, c.returnType = some t → Collapsed t.toList ∧ t ≠ ""
  references : ∀ t ∈ c.references, OnlySpaces t

theorem Tidy.addText {c : Candidate} (h : c.Tidy) (role : Role) (text : String) :
    (c.addText role text).Tidy := by
  unfold Candidate.addText
  cases role with
  | name =>
    dsimp only
    split
    · exact h
    · refine ⟨fun t ht => ?_, h.declaredType, h.returnType, h.references⟩
      obtain rfl := Option.some.inj ht
      exact collapsed_collapse text
  | type =>
    refine ⟨h.name, fun t ht => ?_, h.returnType, h.references⟩
    dsimp only at ht
    exact collapsed_of_typeText? ht
  | result =>
    refine ⟨h.name, h.declaredType, fun t ht => ?_, h.references⟩
    dsimp only at ht
    exact collapsed_of_typeText? ht
  | reference =>
    refine ⟨h.name, h.declaredType, h.returnType, fun t ht => ?_⟩
    rcases List.mem_append.mp ht with hold | hnew
    · exact h.references t hold
    · exact onlySpaces_of_bases? (Option.mem_toList.mp hnew)

theorem Tidy.addCapture {c : Candidate} (h : c.Tidy) (f : SourceFile) (table : List (String × Label))
    (capture : String × Node) : (c.addCapture f table capture).Tidy := by
  unfold Candidate.addCapture
  split
  · split
    · exact h.addText _ _
    · exact h
  · exact h

theorem Tidy.foldl_addCapture {c : Candidate} (h : c.Tidy) (f : SourceFile)
    (table : List (String × Label)) (captures : Captures) :
    (captures.foldl (Candidate.addCapture f table) c).Tidy := by
  induction captures generalizing c with
  | nil => exact h
  | cons capture captures ih => exact ih (h.addCapture f table capture)

theorem tidy_of_ofMatch? {f : SourceFile} {table : List (String × Label)} {m : QueryMatch}
    {c : Candidate} (h : ofMatch? f table m = some c) : c.Tidy := by
  unfold ofMatch? at h
  split at h
  · cases h
  · dsimp only at h
    split at h
    · cases h
    · obtain rfl := Option.some.inj h
      refine Tidy.foldl_addCapture ⟨?_, ?_, ?_, ?_⟩ f table _
      all_goals simp

end Candidate

/-! ## Entities -/

namespace Facts

/-- The texts of an entity are as structuring writes them. -/
structure Tidy (f : Facts) : Prop where
  name : Collapsed f.name.toList
  declaredType : ∀ t, f.declaredType = some t → Collapsed t.toList ∧ t ≠ ""
  returnType : ∀ t, f.returnType = some t → Collapsed t.toList ∧ t ≠ ""
  reference : ∀ t, f.reference = some t → OnlySpaces t

theorem tidy_of_saidBy {c : Candidate} {f : Facts} (h : c.SaidBy f) (hc : c.Tidy) : f.Tidy := by
  refine ⟨?_, ?_, ?_, ?_⟩
  · rw [h.name]
    cases hname : c.name with
    | none => rfl
    | some t => exact hc.name t hname
  · rw [h.declaredType]
    exact hc.declaredType
  · rw [h.returnType]
    exact hc.returnType
  · rw [h.reference]
    split
    · simp
    · rintro t ⟨⟩
      exact onlySpaces_join hc.references

end Facts

namespace SourceFile

section

variable [QueryEngine]

/-- The entities of a file, whatever the cache went through, come from some query. -/
theorem exists_entitiesOf {f : SourceFile} {p : Profile} {c : QueryCache} {entities : List Entity}
    (h : (f.structured p c).1 = .ok entities) :
    ∃ table q, entities = f.entitiesOf table q := by
  unfold structured at h
  split at h
  · cases h
  · split at h
    · cases h
    · split at h
      · cases h
      · cases h
        exact ⟨_, _, rfl⟩

theorem tidy_of_structured {f : SourceFile} {p : Profile} {c : QueryCache} {entities : List Entity}
    (h : (f.structured p c).1 = .ok entities) {e : Entity} (he : e ∈ Entity.walk entities) :
    e.facts.Tidy := by
  obtain ⟨table, q, rfl⟩ := exists_entitiesOf h
  obtain ⟨c, hc, hsaid⟩ := Forest.exists_saidBy he
  obtain ⟨m, -, hmatch⟩ := List.mem_filterMap.mp hc
  exact Facts.tidy_of_saidBy hsaid (Candidate.tidy_of_ofMatch? hmatch)

/-- **Names and types are collapsed.**  Collapsing a text keeps its words, leaves no blank but single
spaces between two of them, and changes nothing the second time; it changes nothing at all exactly in
a text whose blanks are such spaces already.  Structure any file with any profile, whatever the cache
went through: collapsing changes neither the name of an entity nor the types that it has, and these
types are not empty. -/
theorem structured_texts_collapsed :
    (∀ s : String, words (collapse s).toList = words s.toList ∧ LoneSpaces (collapse s).toList ∧
      collapse (collapse s) = collapse s ∧ (collapse s = s ↔ LoneSpaces s.toList)) ∧
    ∀ (f : SourceFile) (p : Profile) (c : QueryCache) (entities : List Entity),
      (f.structured p c).1 = .ok entities → ∀ e ∈ Entity.walk entities,
        collapse e.facts.name = e.facts.name ∧
        (∀ t, e.facts.declaredType = some t → collapse t = t ∧ t ≠ "") ∧
        ∀ t, e.facts.returnType = some t → collapse t = t ∧ t ≠ "" := by
  refine ⟨fun s => ⟨?_, (collapsed_collapse s).loneSpaces, ?_, ?_⟩, fun f p c entities h e he => ?_⟩
  · rw [collapse, String.toList_ofList, words_collapseChars]
  · exact collapse_eq_self_iff.mpr (collapsed_collapse s)
  · rw [collapse_eq_self_iff, collapsed_iff_loneSpaces]
  · have htidy := tidy_of_structured h he
    refine ⟨collapse_eq_self_iff.mpr htidy.name, fun t ht => ?_, fun t ht => ?_⟩
    · obtain ⟨hcollapsed, hne⟩ := htidy.declaredType t ht
      exact ⟨collapse_eq_self_iff.mpr hcollapsed, hne⟩
    · obtain ⟨hcollapsed, hne⟩ := htidy.returnType t ht
      exact ⟨collapse_eq_self_iff.mpr hcollapsed, hne⟩

end

end SourceFile

/-- A language whose structure query finds functions with a name and two types. -/
def Profile.typedFunctions : Profile where
  id := "notes"
  aliases := []
  extensions := ["txt"]
  defaultGrammar := .ofHandle .python
  otherGrammars := []
  extensionGrammars := []
  testRule := .anyOf []
  queries := ⟨fun name => ⟨name, "notes", 1,
    "(function_definition name: (identifier) @function.name parameters: (parameters) @function.type " ++
      "return_type: (type) @function.return) @function"⟩⟩
  taxonomy := ⟨[.functions]⟩
  builtinTypes := []
  autoSelect := []

namespace SourceFile

def functionOverLines : SourceFile :=
  let info (kind : String) (start stop : Nat) (field : Option String) : NodeInfo :=
    { (default : NodeInfo) with
      kind := kind, startByte := start, endByte := stop, named := true, field := field }
  ⟨"a.txt", "notes", "python", Text.Utf8.encode "f\n g:: (a,\t b) ->: Map  of\n\n T",
    .node (info "module" 0 30 none)
      [.node (info "function_definition" 0 30 none)
        [.node (info "identifier" 0 4 "name") [], .node (info "parameters" 4 14 "parameters") [],
          .node (info "type" 15 30 "return_type") []]]⟩

def structuredTexts (f : SourceFile) :
    Except Failure (List (String × Option String × Option String)) :=
  (f.structured .typedFunctions .empty).1.map fun entities =>
    (Entity.walk entities).map fun e => (e.facts.name, e.facts.declaredType, e.facts.returnType)

theorem structured_texts_collapsed_lines :
    ∃ entities, (functionOverLines.structured .typedFunctions .empty).1 = .ok entities ∧
      ∃ e ∈ Entity.walk entities, e.facts.name = "f g" ∧ collapse "f g" = "f g" ∧
        e.facts.declaredType = some "(a, b)" ∧ collapse "(a, b)" = "(a, b)" ∧
        e.facts.returnType = some "Map of T" ∧ collapse "Map of T" = "Map of T" := by
  have htexts : functionOverLines.structuredTexts =
      .ok [("f g", some "(a, b)", some "Map of T")] := by
    decide +kernel
  obtain ⟨entities, hok, hwalk⟩ := exists_of_map_ok htexts
  obtain ⟨e, he, hfacts⟩ := List.mem_map.mp (hwalk ▸ List.mem_cons_self)
  obtain ⟨hname, htypes⟩ := Prod.mk.inj hfacts
  obtain ⟨hdeclared, hreturn⟩ := Prod.mk.inj htypes
  obtain ⟨hnamed, hdeclares, hreturns⟩ := structured_texts_collapsed.2 _ _ _ entities hok e he
  rw [hname] at hnamed
  exact ⟨entities, hok, e, he, hname, hnamed, hdeclared, (hdeclares _ hdeclared).1, hreturn,
    (hreturns _ hreturn).1⟩

end SourceFile

end CodeAtlas
