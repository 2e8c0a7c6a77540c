import CodeAtlas.Analyzer
import CodeAtlas.Glob.Reader
import CodeAtlas.Proofs.Config.Consistency
import CodeAtlas.Query.Interpreter
import Mathlib.Data.List.Induction

/-!
Options that change between scans.  An update is accepted if its options are consistent, and then the
options and the compiled globs both change; otherwise nothing does (`updated_cases`).  By induction
over the updates an analyzer always has consistent options, the last that were accepted, with the
globs that were compiled from them, and it always works with the profiles, the queries and the
structurer that it was made with:

    withComponents profiles cache structurer c₀ = .ok a  →  a.afterUpdates cs
                                                                  (options_after_updates)
-/

namespace CodeAtlas

section

variable [Glob.Engine]

/-- The last consistent one of some options. -/
def Config.IsLastConsistent (c : Config) (history : List Config) : Prop :=
  c.Consistent ∧ ∃ before after, history = before ++ c :: after ∧ ∀ c' ∈ after, ¬ c'.Consistent

namespace Analyzer

variable [QueryEngine]

def updated (a : Analyzer) (c : Config) : Analyzer :=
  (a.update c).2

def afterUpdates (a : Analyzer) (cs : List Config) : Analyzer :=
  cs.foldl updated a

/-- Two analyzers that differ in their options at most. -/
structure SameParts (a b : Analyzer) : Prop where
  profiles : a.profiles = b.profiles
  cache : a.cache = b.cache
  structurer : a.structurer = b.structurer
  /-- A single file is structured without a look at the options. -/
  file : ∀ parser d path, (a.structureFile parser d path).1 = (b.structureFile parser d path).1

theorem sameParts_of_eq {a b : Analyzer} (hprofiles : a.profiles = b.profiles)
    (hcache : a.cache = b.cache) (hstructurer : a.structurer = b.structurer) : a.SameParts b where
  profiles := hprofiles
  cache := hcache
  structurer := hstructurer
  file parser d path := by
    unfold structureFile
    rw [hprofiles, hcache, hstructurer]

theorem SameParts.trans {a b c : Analyzer} (hab : a.SameParts b) (hbc : b.SameParts c) :
    a.SameParts c :=
  sameParts_of_eq (hab.profiles.trans hbc.profiles) (hab.cache.trans hbc.cache)
    (hab.structurer.trans hbc.structurer)

theorem withComponents_cases (profiles : Registry) (cache : QueryCache) (structurer : Structurer)
    (c : Config) :
    (c.Consistent ∧ ∃ a, withComponents profiles cache structurer c = .ok a ∧
      a.profiles = profiles ∧ a.cache = cache ∧ a.structurer = structurer ∧ a.config = c) ∨
    (¬ c.Consistent ∧ ∃ e, c.validate = .error e ∧
      withComponents profiles cache structurer c = .error e) := by
  unfold withComponents
  split
  · rename_i ignore h
    exact .inl ⟨(Config.consistent_iff c).mpr ⟨ignore, h⟩, _, rfl, rfl, rfl, rfl, rfl⟩
  · rename_i e h
    refine .inr ⟨fun hc => ?_, e, h, rfl⟩
    obtain ⟨ignore, hok⟩ := (Config.consistent_iff c).mp hc
    rw [h] at hok
    cases hok

theorem update_cases (a : Analyzer) (c : Config) :
    (c.Consistent ∧ a.update c = (.ok (), a.updated c) ∧ (a.updated c).config = c ∧
      (a.updated c).SameParts a) ∨
    (¬ c.Consistent ∧ ∃ e, c.validate = .error e ∧ a.update c = (.error e, a)) := by
  obtain ⟨hc, next, hnext, hprofiles, hcache, hstructurer, hconfig⟩ | ⟨hc, e, hvalidate, herror⟩ :=
    withComponents_cases a.profiles a.cache a.structurer c
  · have hupdate : a.update c = (.ok (), next) := by rw [update, updateConfig, hnext]
    rw [updated, hupdate]
    exact .inl ⟨hc, rfl, hconfig, sameParts_of_eq hprofiles hcache hstructurer⟩
  · exact .inr ⟨hc, e, hvalidate, by rw [update, updateConfig, herror]⟩

theorem afterUpdates_snoc (a : Analyzer) (cs : List Config) (c : Config) :
    a.afterUpdates (cs ++ [c]) = (a.afterUpdates cs).updated c := by
  rw [afterUpdates, List.foldl_append]
  rfl

theorem afterUpdates_keeps {a : Analyzer} {c₀ : Config} (hc₀ : c₀.Consistent) (ha : a.config = c₀)
    (cs : List Config) :
    (a.afterUpdates cs).config.IsLastConsistent (c₀ :: cs) ∧ (a.afterUpdates cs).SameParts a := by
  induction cs using List.reverseRecOn with
  | nil =>
    refine ⟨⟨?_, [], [], ?_, by simp⟩, sameParts_of_eq rfl rfl rfl⟩
    · exact ha ▸ hc₀
    · rw [afterUpdates, List.foldl_nil, ha]
      rfl
  | append_singleton cs c ih =>
    obtain ⟨⟨hlast, before, after, hhistory, hafter⟩, hparts⟩ := ih
    rw [afterUpdates_snoc]
    obtain ⟨hc, -, hconfig, hsame⟩ | ⟨hc, e, -, hupdate⟩ := (a.afterUpdates cs).update_cases c
    · rw [hconfig]
      exact ⟨⟨hc, c₀ :: cs, [], rfl, by simp⟩, hsame.trans hparts⟩
    · rw [updated, hupdate]
      refine ⟨⟨hlast, before, after ++ [c], ?_, ?_⟩, hparts⟩
      · rw [← List.cons_append, hhistory, List.append_assoc, List.cons_append]
      · exact List.forall_mem_append.mpr ⟨hafter, List.forall_mem_singleton.mpr hc⟩

/-- **An analyzer has the options that it accepted last.**  Make one and update its options any
number of times.  Its options are then consistent, they are the last consistent ones that it was
given, and its ignore rule is compiled from their globs.  The next update is accepted if and only if
its options are consistent: then these are the options and the ignore rule is compiled from them,
and otherwise it says what is wrong with the options and leaves the analyzer as it was.  The
profiles, the compiled queries and the structurer are those that it was made with. -/
theorem options_after_updates {profiles : Registry} {cache : QueryCache} {structurer : Structurer}
    {c₀ : Config} {a : Analyzer} (h : withComponents profiles cache structurer c₀ = .ok a)
    (cs : List Config) :
    (a.afterUpdates cs).config.IsLastConsistent (c₀ :: cs) ∧
    Glob.PatternSet.compile (a.afterUpdates cs).config.ignoreGlobs = .ok (a.afterUpdates cs).ignore ∧
    (∀ c, c.Consistent →
      (a.afterUpdates cs).update c = (.ok (), a.afterUpdates (cs ++ [c])) ∧
      (a.afterUpdates (cs ++ [c])).config = c ∧
      Glob.PatternSet.compile c.ignoreGlobs = .ok (a.afterUpdates (cs ++ [c])).ignore) ∧
    (∀ c, ¬ c.Consistent →
      (∃ e, c.validate = .error e ∧
        (a.afterUpdates cs).update c = (.error e, a.afterUpdates cs)) ∧
      a.afterUpdates (cs ++ [c]) = a.afterUpdates cs) ∧
    (a.afterUpdates cs).profiles = profiles ∧ (a.afterUpdates cs).cache = cache ∧
    (a.afterUpdates cs).structurer = structurer ∧ (a.afterUpdates cs).SameParts a := by
  have hmade : c₀.Consistent ∧ a.profiles = profiles ∧ a.cache = cache ∧
      a.structurer = structurer ∧ a.config = c₀ := by
    obtain ⟨hc₀, a', hok, hrest⟩ | ⟨-, e, -, herror⟩ :=
      withComponents_cases profiles cache structurer c₀
    · rw [h] at hok
      cases hok
      exact ⟨hc₀, hrest⟩
    · rw [h] at herror
      cases herror
  obtain ⟨hc₀, hprofiles, hcache, hstructurer, hconfig⟩ := hmade
  obtain ⟨hlast, hparts⟩ := afterUpdates_keeps hc₀ hconfig cs
  have hcompiled : ∀ b : Analyzer, Glob.PatternSet.compile b.config.ignoreGlobs = .ok b.ignore :=
    fun b => Config.compile_of_validate b.valid
  refine ⟨hlast, hcompiled _, fun c hc => ?_, fun c hc => ?_, hparts.profiles.trans hprofiles,
    hparts.cache.trans hcache, hparts.structurer.trans hstructurer, hparts⟩
  · rw [afterUpdates_snoc]
    obtain ⟨-, hok, hnew, -⟩ | ⟨hno, -⟩ := (a.afterUpdates cs).update_cases c
    · have hglobs := hcompiled ((a.afterUpdates cs).updated c)
      rw [hnew] at hglobs
      exact ⟨hok, hnew, hglobs⟩
    · exact absurd hc hno
  · rw [afterUpdates_snoc]
    obtain ⟨hyes, -⟩ | ⟨-, e, hvalidate, hupdate⟩ := (a.afterUpdates cs).update_cases c
    · exact absurd hyes hc
    · exact ⟨⟨e, hvalidate, hupdate⟩, by rw [updated, hupdate]⟩

end Analyzer

end

namespace Config

/-- Options with a glob that cannot be read behind one that can. -/
def brokenGlob : Config := { ignoreGlobs := ["src/**", "["], maxWorkers := 4 }

def nowhere : Config := { upload := true, uploadUrl := some "  " }

def withoutNotes : Config := { ignoreGlobs := ["*.md"], maxWorkers := 2 }

end Config

namespace Analyzer

theorem options_after_updates_refused : ∃ a, withComponents .empty .empty .query {} = .ok a ∧
    ¬ Config.brokenGlob.Consistent ∧ ¬ Config.nowhere.Consistent ∧
    a.afterUpdates [.brokenGlob, .nowhere] = a ∧
    (a.afterUpdates [.brokenGlob, .nowhere, .withoutNotes]).config = .withoutNotes ∧
    Glob.PatternSet.compile ["*.md"] =
      .ok (a.afterUpdates [.brokenGlob, .nowhere, .withoutNotes]).ignore := by
  have hvalid : ∀ c : Config, c.validate.toOption.isSome = true ↔ c.Consistent := by
    intro c
    rw [Config.consistent_iff]
    cases c.validate <;> simp [Except.toOption]
  have hbroken : ¬ Config.brokenGlob.Consistent := by rw [← hvalid]; decide
  have hnowhere : ¬ Config.nowhere.Consistent := by rw [← hvalid]; decide
  have hgood : Config.withoutNotes.Consistent := by rw [← hvalid]; decide
  obtain ⟨-, a, ha, -⟩ | ⟨hno, -⟩ := withComponents_cases .empty .empty .query {}
  · obtain ⟨-, -, -, hrefused, -⟩ := options_after_updates ha []
    obtain ⟨-, -, -, hrefused', -⟩ := options_after_updates ha [.brokenGlob]
    obtain ⟨-, -, haccepted, -⟩ := options_after_updates ha [.brokenGlob, .nowhere]
    obtain ⟨-, hconfig, hcompiled⟩ := haccepted _ hgood
    have hsame := (hrefused' _ hnowhere).2.trans (hrefused _ hbroken).2
    exact ⟨a, ha, hbroken, hnowhere, hsame, hconfig, hcompiled⟩
  · exact absurd ((hvalid {}).mp (by decide)) hno

end Analyzer

end CodeAtlas
