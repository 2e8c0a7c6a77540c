import CodeAtlas.Proofs.Profile.Header
import CodeAtlas.Proofs.Profile.Lookup
import CodeAtlas.Proofs.Registry.Additive

/-!
What a definition must have for its profile to load.  The demands are a list, in the order of their
checks: extensions, kinds and grammars, a grammar for every extension of the table, and a query text
with a header for each name.

    ofDefinition d gives a profile     ↔  every demand of d is met
    ofDefinition d gives the fault e   ↔  FirstUnmet d.demands e     (ofDefinition_meets_demands)

Checks come one after the other, by a condition or by binding, and each of the two composes the lists
of demands (`Meets.cons`, `Meets.bind`).
-/

namespace CodeAtlas

/-! ## Demands -/

/-- A demand, with the faults that are found where it is not met. -/
structure Demand where
  Met : Prop
  Fault : ProfileFault → Prop

/-- The first of the demands that is not met, and its fault. -/
inductive FirstUnmet : List Demand → ProfileFault → Prop where
  | here {c : Demand} {cs : List Demand} {e : ProfileFault} (hunmet : ¬ c.Met) (hfault : c.Fault e) :
      FirstUnmet (c :: cs) e
  | later {c : Demand} {cs : List Demand} {e : ProfileFault} (hmet : c.Met) (h : FirstUnmet cs e) :
      FirstUnmet (c :: cs) e

/-- A computation gives a result if the demands are met, and otherwise the fault of the first that is
not. -/
structure Meets {α : Type} (demands : List Demand) (x : Except ProfileFault α) : Prop where
  ok_iff : (∃ a, x = .ok a) ↔ ∀ c ∈ demands, c.Met
  error_iff : ∀ e, x = .error e ↔ FirstUnmet demands e

theorem firstUnmet_nil (e : ProfileFault) : ¬ FirstUnmet [] e :=
  nofun

theorem firstUnmet_cons_of_met {c : Demand} (h : c.Met) (cs : List Demand) (e : ProfileFault) :
    FirstUnmet (c :: cs) e ↔ FirstUnmet cs e := by
  constructor
  · intro hfirst
    cases hfirst with
    | here hunmet => exact absurd h hunmet
    | later _ hfirst => exact hfirst
  · exact .later h

theorem firstUnmet_cons_of_unmet {c : Demand} (h : ¬ c.Met) (cs : List Demand) (e : ProfileFault) :
    FirstUnmet (c :: cs) e ↔ c.Fault e := by
  constructor
  · intro hfirst
    cases hfirst with
    | here _ hfault => exact hfault
    | later hmet => exact absurd hmet h
  · exact .here h

namespace Meets

variable {α β : Type}

theorem nil (a : α) : Meets [] (.ok a) where
  ok_iff := by simp
  error_iff e := by simp [firstUnmet_nil]

theorem cons {c : Demand} {cs : List Demand} {x : Except ProfileFault α} (hmet : c.Met)
    (h : Meets cs x) : Meets (c :: cs) x where
  ok_iff := by simp [h.ok_iff, hmet]
  error_iff e := by rw [h.error_iff, firstUnmet_cons_of_met hmet]

/-- A check that fails, whatever would be asked for after it. -/
theorem fail {c : Demand} {e : ProfileFault} (hunmet : ¬ c.Met) (hfault : ∀ e', c.Fault e' ↔ e' = e)
    (cs : List Demand) : Meets (c :: cs) (.error e : Except ProfileFault α) where
  ok_iff := by simp [hunmet]
  error_iff e' := by
    rw [firstUnmet_cons_of_unmet hunmet, hfault, Except.error.injEq]
    exact eq_comm

theorem append {before cs : List Demand} {x : Except ProfileFault α} (hmet : ∀ c ∈ before, c.Met)
    (h : Meets cs x) : Meets (before ++ cs) x := by
  induction before with
  | nil => exact h
  | cons c before ih =>
    obtain ⟨hc, hbefore⟩ := List.forall_mem_cons.mp hmet
    exact (ih hbefore).cons hc

theorem of_error {cs : List Demand} {e : ProfileFault}
    (h : Meets cs (.error e : Except ProfileFault α)) (ds : List Demand) :
    Meets (cs ++ ds) (.error e : Except ProfileFault β) := by
  have hfirst := (h.error_iff e).mp rfl
  have honly : ∀ e', FirstUnmet cs e' → e' = e := by
    intro e' he'
    exact (Except.error.inj ((h.error_iff e').mpr he')).symm
  clear h
  induction hfirst with
  | here hunmet hfault =>
    refine fail hunmet (fun e' => ⟨fun he' => honly e' (.here hunmet he'), ?_⟩) _
    rintro rfl
    exact hfault
  | later hmet _ ih => exact (ih (fun e' he' => honly e' (.later hmet he'))).cons hmet

theorem bind {cs ds : List Demand} {x : Except ProfileFault α} {f : α → Except ProfileFault β}
    (hx : Meets cs x) (hf : ∀ a, Meets ds (f a)) : Meets (cs ++ ds) (x >>= f) := by
  cases x with
  | error e => exact hx.of_error ds
  | ok a => exact (hf a).append (hx.ok_iff.mp ⟨a, rfl⟩)

end Meets

/-! ## Listed texts -/

def FirstListed (sources : List (QueryName × String)) (name : QueryName) (source : String) : Prop :=
  ∃ before after, sources = before ++ (name, source) :: after ∧ ∀ s ∈ before, s.1 ≠ name

section

variable {sources : List (QueryName × String)} {name : QueryName}

theorem find?_eq_some_iff_firstListed {source : String} :
    sources.find? (fun s => s.1 == name) = some (name, source) ↔ FirstListed sources name source := by
  rw [List.find?_eq_some_iff_append]
  simp [FirstListed]

namespace FirstListed

theorem mem {source : String} (h : FirstListed sources name source) : (name, source) ∈ sources := by
  obtain ⟨before, after, rfl, -⟩ := h
  simp

theorem unique {source source' : String} (h : FirstListed sources name source)
    (h' : FirstListed sources name source') : source = source' := by
  rw [← find?_eq_some_iff_firstListed] at h h'
  rw [h] at h'
  exact congrArg (·.2) (Option.some.inj h')

end FirstListed

theorem unlisted_or_firstListed (sources : List (QueryName × String)) (name : QueryName) :
    (∀ s ∈ sources, s.1 ≠ name) ∨ ∃ source, FirstListed sources name source := by
  cases hfind : sources.find? (fun s => s.1 == name) with
  | none => exact Or.inl (by simpa using hfind)
  | some s =>
    obtain ⟨listed, source⟩ := s
    obtain rfl : listed = name := by simpa using List.find?_some hfind
    exact Or.inr ⟨source, find?_eq_some_iff_firstListed.mp hfind⟩

end

/-! ## The demands of a definition -/

/-- What is wrong with the texts that are listed, as far as one name goes. -/
inductive ListedFault (language : String) (sources : List (QueryName × String)) (name : QueryName) :
    ProfileFault → Prop where
  | missing (h : ∀ s ∈ sources, s.1 ≠ name) :
      ListedFault language sources name (.missingQuery language name.text)
  | header {source reason : String} {e : ProfileFault} (hlisted : FirstListed sources name source)
      (h : Asset.HeaderDefect language name.text source e reason) :
      ListedFault language sources name e

namespace Demand

/-- A list of the definition has a member. -/
def nonempty {α : Type} (language what : String) (members : List α) : Demand where
  Met := members ≠ []
  Fault e := e = .empty language what

/-- The grammar that an extension selects is one of the grammars. -/
def selected (language : String) (grammars : List Grammar) (entry : String × String) : Demand where
  Met := ∃ g ∈ grammars, g.id = entry.2
  Fault e := e = .unknownGrammar language entry.1 entry.2

/-- The first text of a name has a header with the language. -/
def query (language : String) (sources : List (QueryName × String)) (name : QueryName) : Demand where
  Met := ∃ source version, FirstListed sources name source ∧
    Asset.NamesLanguage source language ∧ Asset.NamesVersion source version
  Fault := ListedFault language sources name

end Demand

/-- What is asked of a definition, in the order in which it is asked. -/
def Definition.demands (d : Definition) : List Demand :=
  .nonempty d.id "extensions" d.extensions :: .nonempty d.id "taxonomy" d.taxonomy.kinds ::
    .nonempty d.id "grammars" d.grammars ::
      (d.extensionGrammars.map (.selected d.id d.grammars) ++
        QueryName.all.map (.query d.id d.queries))

/-! ## Queries -/

namespace QuerySet

variable {language : String} {sources : List (QueryName × String)} {name : QueryName}

theorem load_of_firstListed {source : String} (h : FirstListed sources name source) :
    load language sources name = Asset.parse language name source := by
  rw [load, find?_eq_some_iff_firstListed.mpr h]

theorem load_of_unlisted (h : ∀ s ∈ sources, s.1 ≠ name) :
    load language sources name = .error (.missingQuery language name.text) := by
  rw [load, List.find?_eq_none.mpr (by simpa using h)]

theorem listedFault_of_unlisted (h : ∀ s ∈ sources, s.1 ≠ name) (e : ProfileFault) :
    ListedFault language sources name e ↔ e = .missingQuery language name.text := by
  constructor
  · rintro (_ | ⟨hlisted, -⟩)
    · rfl
    · exact absurd rfl (h _ hlisted.mem)
  · rintro rfl
    exact .missing h

theorem listedFault_of_firstListed {source : String} (h : FirstListed sources name source)
    (e : ProfileFault) : ListedFault language sources name e ↔
      ∃ reason, Asset.HeaderDefect language name.text source e reason := by
  constructor
  · rintro (hnone | ⟨hlisted, hdefect⟩)
    · exact absurd rfl (hnone _ h.mem)
    · obtain rfl := h.unique hlisted
      exact ⟨_, hdefect⟩
  · rintro ⟨reason, hdefect⟩
    exact .header h hdefect

theorem load_meets (language : String) (sources : List (QueryName × String)) (name : QueryName) :
    Meets [.query language sources name] (load language sources name) := by
  rcases unlisted_or_firstListed sources name with hnone | ⟨source, hlisted⟩
  · rw [load_of_unlisted hnone]
    refine .fail ?_ (listedFault_of_unlisted hnone) []
    rintro ⟨source, -, hlisted, -⟩
    exact hnone _ hlisted.mem rfl
  · rw [load_of_firstListed hlisted]
    rcases Asset.named_or_defect language name.text source with ⟨version, htag, hversion⟩ |
      ⟨e, reason, hdefect⟩
    · rw [Asset.parse_of_named htag hversion]
      exact (Meets.nil _).cons ⟨source, version, hlisted, htag, hversion⟩
    · have hparse := Asset.parse_of_defect hdefect
      rw [hparse]
      refine .fail ?_ (fun e' => ?_) []
      · rintro ⟨source', version, hlisted', htag, hversion⟩
        obtain rfl := hlisted.unique hlisted'
        rw [Asset.parse_of_named htag hversion] at hparse
        cases hparse
      · show ListedFault language sources name e' ↔ e' = e
        rw [listedFault_of_firstListed hlisted, ← Asset.parse_eq_error_iff, hparse,
          Except.error.injEq]
        exact eq_comm

theorem ofSources_meets (language : String) (sources : List (QueryName × String)) :
    Meets (QueryName.all.map (.query language sources)) (ofSources language sources) := by
  have h := load_meets language sources
  unfold ofSources
  exact (h .structural).bind fun _ => (h .scope).bind fun _ => (h .hoverable).bind fun _ =>
    (h .classes).bind fun _ => (h .methods).bind fun _ => (h .docComment).bind fun _ =>
    (h .signature).bind fun _ => .nil _

theorem get_of_ofSources {q : QuerySet} (h : ofSources language sources = .ok q) (name : QueryName) :
    (q.get name).name = name ∧ (q.get name).language = language ∧
      FirstListed sources name (q.get name).source := by
  have hload := load_of_ofSources h name
  rcases unlisted_or_firstListed sources name with hnone | ⟨source, hlisted⟩
  · rw [load_of_unlisted hnone] at hload
    cases hload
  · rw [load_of_firstListed hlisted] at hload
    obtain ⟨version, -, -, hasset⟩ := (Asset.parse_eq_ok_iff language name source _).mp hload
    rw [hasset]
    exact ⟨rfl, rfl, hlisted⟩

end QuerySet

/-! ## Profiles -/

namespace Profile

theorem any_eq_true_iff_selected (language : String) (grammars : List Grammar)
    (entry : String × String) :
    grammars.any (fun g => g.id == entry.2) = true ↔
      (Demand.selected language grammars entry).Met := by
  simp [Demand.selected]

theorem meets_of_unknownGrammar? {α : Type} (language : String) {grammars : List Grammar}
    {table : List (String × String)} {e : String × String}
    (h : unknownGrammar? grammars table = some e) (ds : List Demand) :
    Meets (table.map (.selected language grammars) ++ ds)
      (.error (.unknownGrammar language e.1 e.2) : Except ProfileFault α) := by
  obtain ⟨hunknown, before, after, rfl, hbefore⟩ := List.find?_eq_some_iff_append.mp h
  rw [Bool.not_eq_true', Bool.eq_false_iff, ne_eq, any_eq_true_iff_selected language] at hunknown
  rw [List.map_append, List.map_cons, List.append_assoc, List.cons_append]
  refine .append (List.forall_mem_map.mpr fun b hb => ?_) (.fail hunknown (fun _ => Iff.rfl) _)
  rw [← any_eq_true_iff_selected]
  simpa using hbefore b hb

theorem ofDefinition_meets (d : Definition) : Meets d.demands (ofDefinition d) := by
  unfold ofDefinition Definition.demands
  split
  · rename_i hnone
    exact .fail (not_not.mpr (List.isEmpty_iff.mp hnone)) (fun _ => Iff.rfl) _
  rename_i hextensions
  refine .cons (fun hnone => hextensions (List.isEmpty_iff.mpr hnone)) ?_
  split
  · rename_i hnone
    exact .fail (not_not.mpr (List.isEmpty_iff.mp hnone)) (fun _ => Iff.rfl) _
  rename_i hkinds
  refine .cons (fun hnone => hkinds (List.isEmpty_iff.mpr hnone)) ?_
  split
  · rename_i hnone
    exact .fail (not_not.mpr hnone) (fun _ => Iff.rfl) _
  rename_i first others hgrammars
  rw [hgrammars]
  refine .cons (List.cons_ne_nil first others) ?_
  split
  · rename_i htable
    exact meets_of_unknownGrammar? d.id htable _
  rename_i htable
  refine .append (List.forall_mem_map.mpr (selects_of_unknownGrammar? htable)) ?_
  rw [← List.append_nil (QueryName.all.map _)]
  exact (QuerySet.ofSources_meets d.id d.queries).bind fun _ => .nil _

/-- **A definition gives a profile exactly if it meets its demands**: there is an extension, a kind
and a grammar, every extension of the table selects one of the grammars, and for each name the first
text that is listed under it has a header with the language.  Otherwise the fault is that of the first
demand that is not met.  Every query of the profile is tagged with its id and has the text that was
listed first, the default grammar is the first one, and whatever the path, the grammar for it is one
of the profile's. -/
theorem ofDefinition_meets_demands (d : Definition) :
    ((∃ p, ofDefinition d = .ok p) ↔ ∀ demand ∈ d.demands, demand.Met) ∧
    (∀ e, ofDefinition d = .error e ↔ FirstUnmet d.demands e) ∧
    ∀ p, ofDefinition d = .ok p →
      p.id = d.id ∧ p.grammars = d.grammars ∧ d.grammars.head? = some p.defaultGrammar ∧
      (∀ name, (p.queries.get name).name = name ∧ (p.queries.get name).language = p.id ∧
        FirstListed d.queries name (p.queries.get name).source) ∧
      ∀ path, p.grammarForPath path ∈ p.grammars := by
  have hmeets := ofDefinition_meets d
  refine ⟨hmeets.ok_iff, hmeets.error_iff, fun p hp => ?_⟩
  obtain ⟨-, hqueries, -⟩ := exists_of_ofDefinition hp
  have hloaded := loadedFrom_of_ofDefinition hp
  refine ⟨hloaded.id, hloaded.grammars, ?_, fun name => ?_, fun path => ?_⟩
  · rw [← hloaded.grammars]
    rfl
  · rw [hloaded.id]
    exact QuerySet.get_of_ofSources hqueries name
  · exact (grammarById?_some (grammarById?_grammarForPath hloaded path)).1

end Profile

/-- A second text for a query, without a header. -/
def Definition.repeated : Definition :=
  { Definition.go.withoutPatterns with
    queries := Definition.go.withoutPatterns.queries ++ [(.scope, "(block) @scope")] }

/-- The second text is not read. -/
theorem Profile.ofDefinition_meets_demands_repeated : ∃ p, ofDefinition .repeated = .ok p ∧
    (p.queries.get .scope).language = "go" ∧ ∀ path, p.grammarForPath path = .ofHandle .go := by
  have hmap : (ofDefinition .repeated).map (·.id) = .ok "go" := by cbv
  obtain ⟨p, hp, hid⟩ := exists_of_map_ok hmap
  obtain ⟨-, -, hprofile⟩ := ofDefinition_meets_demands .repeated
  obtain ⟨-, hgrammars, -, hqueries, hpath⟩ := hprofile p hp
  refine ⟨p, hp, (hqueries .scope).2.1.trans hid, fun path => ?_⟩
  have hmem := hpath path
  rw [hgrammars] at hmem
  exact List.mem_singleton.mp hmem

end CodeAtlas
