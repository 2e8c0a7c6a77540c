import CodeAtlas.Profile.Registry
import CodeAtlas.Proofs.Profile.Header
import Mathlib.Tactic.Choose

/-!
The built-in profiles load.  Each of their query texts starts with a header of two lines:

    ; language: L
    ; version: 1

so it parses as an asset of the language (`parse_of_headed`), and with a few facts about the lists of
a definition the profile can be had (`exists_ofDefinition`).
-/

namespace CodeAtlas

/-! ## Headers -/

namespace Asset

def Headed (language source : String) : Prop :=
  (languageLine language ++ "\n; version: 1\n".toList) <+: source.toList

theorem parse_of_headed {language source : String} (htag : IsTag language)
    (h : Headed language source) (name : QueryName) :
    parse language name source = .ok ⟨name, language, 1, source⟩ := by
  obtain ⟨rest, hrest⟩ := h
  have hsource : source.toList = languageLine language ++ '\n' :: (versionLine 1 ++ '\n' :: rest) := by
    rw [← hrest, List.append_assoc]
    rfl
  obtain ⟨hlanguage, hversion⟩ := named_of_written htag (by decide) hsource
  exact parse_of_named hlanguage hversion name

theorem Headed.of_ofList {language source : String} (cs : List Char) (h : source = String.ofList cs)
    (hcs : (languageLine language ++ "\n; version: 1\n".toList).isPrefixOf cs = true) :
    Headed language source := by
  have hlist : source.toList = cs := by rw [h, String.toList_ofList]
  rw [Headed, hlist]
  exact List.isPrefixOf_iff_prefix.mp hcs

end Asset

/-! ## Definitions -/

namespace QuerySet

theorem exists_ofSources {language : String} {sources : List (QueryName × String)}
    (h : ∀ name, ∃ a, load language sources name = .ok a) :
    ∃ q, ofSources language sources = .ok q := by
  choose asset hasset using h
  unfold ofSources
  simp only [hasset, bind, Except.bind]
  exact ⟨_, rfl⟩

end QuerySet

namespace Definition

/-- What a definition needs for its profile to load. -/
structure Complete (d : Definition) : Prop where
  extensions : d.extensions.isEmpty = false
  taxonomy : d.taxonomy.isEmpty = false
  grammars : d.grammars ≠ []
  table : Profile.unknownGrammar? d.grammars d.extensionGrammars = none
  names : d.queries.map (·.1) = QueryName.all
  tag : Asset.IsTag d.id
  headed : ∀ q ∈ d.queries, Asset.Headed d.id q.2

theorem Complete.load {d : Definition} (h : d.Complete) (name : QueryName) :
    ∃ a, QuerySet.load d.id d.queries name = .ok a := by
  have hname : name ∈ d.queries.map (·.1) := h.names ▸ QueryName.mem_all name
  obtain ⟨q, hq, hqname⟩ := List.mem_map.mp hname
  cases hfind : d.queries.find? (fun s => s.1 == name) with
  | none =>
    have := List.find?_eq_none.mp hfind q hq
    simp [hqname] at this
  | some s =>
    have hs := h.headed s (List.mem_of_find?_eq_some hfind)
    exact ⟨_, by rw [QuerySet.load, hfind]; exact Asset.parse_of_headed h.tag hs name⟩

theorem Complete.exists_ofDefinition {d : Definition} (h : d.Complete) :
    ∃ p, Profile.ofDefinition d = .ok p := by
  obtain ⟨queries, hqueries⟩ := QuerySet.exists_ofSources h.load
  obtain ⟨first, others, hgrammars⟩ := List.exists_cons_of_ne_nil h.grammars
  have htable := h.table
  rw [hgrammars] at htable
  unfold Profile.ofDefinition
  simp only [h.extensions, h.taxonomy, hgrammars, htable, hqueries, Bool.false_eq_true, if_false]
  exact ⟨_, rfl⟩

end Definition

namespace Definition

set_option maxRecDepth 20000 in
theorem headed_builtin : ∀ d ∈ builtin, ∀ q ∈ d.queries, Asset.Headed d.id q.2 := by
  simp only [builtin, List.forall_mem_cons, List.not_mem_nil, false_implies, implies_true, and_true,
    c, cpp, go, java, javascript, python, rust, typescript]
  and_intros
  all_goals exact .of_ofList _ rfl (by decide)

theorem complete_builtin : ∀ d ∈ builtin, d.Complete := by
  intro d hd
  refine ⟨?_, ?_, ?_, ?_, ?_, ?_, headed_builtin d hd⟩
  all_goals
    revert d
    decide

end Definition

namespace Registry

end Registry

end CodeAtlas
