import CodeAtlas.Analyzer
import CodeAtlas.Proofs.Profile.Builtin
import CodeAtlas.Proofs.Registry.Additive
import CodeAtlas.Query.Interpreter

/-!
The language of a file.  It is the profile that the extension of the path leads to, whatever becomes
of the file after that (`language_processFile`):

    path --extension--> key --resolve?--> profile --id--> language

The registry looks a key up among the file extensions first, and then among ids and aliases.  So
a file has a language not only if its extension is one that a profile declares, but also if it
is the name of a language (`alias_gives_language`).
-/

namespace CodeAtlas

/-! ## The language in a report -/

theorem FileOutcome.language_ofResult (start : FileReport) (parsed : Bool)
    (result : Except Failure (List Entity)) :
    (ofResult start parsed result).report.language = start.language := by
  cases result <;> rfl

theorem FileOutcome.language_ofBytes [QueryEngine] (structurer : Structurer) (parser : Parser)
    (p : Profile) (start : FileReport) (bytes : List UInt8) (cache : QueryCache) :
    (ofBytes structurer parser p start bytes cache).1.report.language = start.language := by
  unfold ofBytes
  split
  · exact language_ofResult ..
  · exact language_ofResult ..

section

variable [QueryEngine] (structurer : Structurer) (parser : Parser) (profiles : Registry)
  (read : String → Except OsError (List UInt8)) (file : FoundFile) (cache : QueryCache)

theorem language_processFile :
    (processFile structurer parser profiles read file cache).1.report.language =
      (profiles.profileFor? file.relative).map (fun p => p.id) := by
  unfold processFile
  cases profiles.profileFor? file.relative with
  | none => rfl
  | some p =>
    dsimp only
    split
    · exact FileOutcome.language_ofResult ..
    · exact FileOutcome.language_ofBytes ..

theorem language_eq_none_iff :
    (processFile structurer parser profiles read file cache).1.report.language = none ↔
      (processFile structurer parser profiles read file cache).1 =
        .unsupported file.relative ((PathName.extension? file.relative).getD "") := by
  constructor
  · intro hnone
    rw [language_processFile, Option.map_eq_none_iff] at hnone
    rw [processFile, hnone]
  · intro hunsupported
    rw [hunsupported]
    rfl

end

namespace Registry

theorem profileFor?_eq_some_iff {r : Registry} {path : String} {p : Profile} :
    r.profileFor? path = some p ↔ (PathName.extension? path).getD "" ≠ "" ∧
      r.resolve? ((PathName.extension? path).getD "") = some p := by
  unfold profileFor?
  dsimp only
  split
  · rename_i hempty
    simp [String.isEmpty_iff.mp hempty]
  · rename_i hextension
    rw [String.isEmpty_iff] at hextension
    simp [hextension]

variable {history : List Profile} {key : String} {p : Profile}

theorem resolve?_of_holds_extension (h : Holds (fun q => normalize key ∈ extensionKeys q) history p) :
    (ofHistory history).resolve? key = some p :=
  ((follows_ofHistory history).resolve?_iff key p).mpr (Or.inl h)

theorem resolve?_of_holds_name
    (hnone : ∀ q ∈ (ofHistory history).sorted, normalize key ∉ extensionKeys q)
    (h : Holds (fun q => normalize key ∈ nameKeys q) history p) :
    (ofHistory history).resolve? key = some p := by
  refine ((follows_ofHistory history).resolve?_iff key p).mpr (Or.inr ⟨fun q hq => ?_, h⟩)
  exact hnone q hq.mem_sorted hq.mem.2

/-- With every id registered once, a declared key leads somewhere. -/
theorem resolve?_ne_none_of_nodup (hids : (history.map (fun q => q.id)).Nodup)
    (hp : p ∈ (ofHistory history).sorted) (hkey : normalize key ∈ declaredKeys p) :
    (ofHistory history).resolve? key ≠ none := by
  rw [ne_eq, resolve?_eq_none_iff]
  rintro ⟨hextension, hname⟩
  rcases List.mem_append.mp hkey with hkey | hkey
  · exact not_lapsed_of_nodup hids (mem_of_mem_sorted hp) hkey hextension
  · exact not_lapsed_of_nodup hids (mem_of_mem_sorted hp) hkey hname

end Registry

/-! ## An alias for an extension -/

namespace Definition

theorem exists_python : ∃ python, Profile.ofDefinition .python = .ok python :=
  (complete_builtin .python (by simp [builtin])).exists_ofDefinition

theorem exists_go : ∃ go, Profile.ofDefinition .go = .ok go :=
  (complete_builtin .go (by simp [builtin])).exists_ofDefinition

end Definition

namespace Registry

/-- Go holds its alias wherever it is registered last. -/
theorem holds_golang {go : Profile} (h : Profile.ofDefinition .go = .ok go) (before : List Profile) :
    Holds (fun q => normalize "golang" ∈ nameKeys q) (before ++ [go]) go := by
  obtain ⟨hid, haliases, -⟩ := Profile.keys_of_ofDefinition h
  refine ⟨before, [], rfl, ?_, by simp⟩
  show normalize "golang" ∈ nameKeys go
  rw [nameKeys, hid, haliases]
  decide

theorem golang_not_mem_extensionKeys {go : Profile} (h : Profile.ofDefinition .go = .ok go) :
    normalize "golang" ∉ extensionKeys go := by
  rw [extensionKeys, (Profile.keys_of_ofDefinition h).2.2]
  decide

end Registry

open Registry in
/-- Go has the alias `golang` and no such extension; a file with it is a Go file. -/
theorem alias_gives_language : ∃ go, Profile.ofDefinition .go = .ok go ∧
    (∀ p ∈ (ofHistory [go]).sorted, normalize "golang" ∉ extensionKeys p) ∧
    ∀ structurer parser read cache,
      (processFile structurer parser (ofHistory [go]) read ⟨"notes.golang", "notes.golang"⟩
        cache).1.report.language = some "go" := by
  obtain ⟨go, hgo⟩ := Definition.exists_go
  have hnone : ∀ p ∈ (ofHistory [go]).sorted, normalize "golang" ∉ extensionKeys p := by
    intro p hp
    rw [List.mem_singleton.mp (mem_of_mem_sorted hp)]
    exact golang_not_mem_extensionKeys hgo
  have hextension : (PathName.extension? "notes.golang").getD "" = "golang" := by decide
  refine ⟨go, hgo, hnone, fun structurer parser read cache => ?_⟩
  have hprofile : (ofHistory [go]).profileFor? "notes.golang" = some go := by
    rw [profileFor?_eq_some_iff, hextension]
    exact ⟨by decide, resolve?_of_holds_name hnone (holds_golang hgo [])⟩
  rw [language_processFile, hprofile, Option.map_some, (Profile.keys_of_ofDefinition hgo).1]
  rfl

/-! ## The language of a file -/

open Registry in
/-- **A file has the language that its extension leads to.**  Let the key be the extension of the
path, in normal form.  The language of a file is that of a registered profile which declares the key
as an extension, its id or an alias.  The last profile that declares the key as an extension is the
one, if its id was not registered again; and if no registered profile has the extension, it is the
last one with this id or alias, under the same condition.  So with every id registered once a file
has a language exactly if its extension is declared in some way.  A file without a language, and
no other, is recorded as unsupported. -/
theorem language_follows_keys [QueryEngine] (history : List Profile) (structurer : Structurer)
    (parser : Parser) (read : String → Except OsError (List UInt8)) (file : FoundFile)
    (cache : QueryCache) :
    let extension := (PathName.extension? file.relative).getD ""
    let key := normalize extension
    let registered := (ofHistory history).sorted
    let outcome := (processFile structurer parser (ofHistory history) read file cache).1
    (∀ language, outcome.report.language = some language →
      extension ≠ "" ∧ ∃ p ∈ registered, p.id = language ∧ key ∈ declaredKeys p) ∧
    (∀ p, extension ≠ "" → Holds (fun q => key ∈ extensionKeys q) history p →
      outcome.report.language = some p.id) ∧
    (∀ p, extension ≠ "" → (∀ q ∈ registered, key ∉ extensionKeys q) →
      Holds (fun q => key ∈ nameKeys q) history p → outcome.report.language = some p.id) ∧
    ((history.map (fun q => q.id)).Nodup →
      (outcome.report.language ≠ none ↔
        extension ≠ "" ∧ ∃ p ∈ registered, key ∈ declaredKeys p)) ∧
    (outcome.report.language = none ↔ outcome = .unsupported file.relative extension) := by
  intro extension key registered outcome
  have hlanguage : ∀ language, outcome.report.language = some language ↔
      extension ≠ "" ∧ ∃ p, (ofHistory history).resolve? extension = some p ∧ p.id = language := by
    intro language
    rw [language_processFile, Option.map_eq_some_iff]
    simp only [profileFor?_eq_some_iff, and_assoc, exists_and_left]
    rfl
  have hdeclared : ∀ language, outcome.report.language = some language →
      extension ≠ "" ∧ ∃ p ∈ registered, p.id = language ∧ key ∈ declaredKeys p := by
    intro language h
    obtain ⟨hne, p, hp, hid⟩ := (hlanguage language).mp h
    obtain ⟨hregistered, hkey⟩ := declares_of_resolve? hp
    exact ⟨hne, p, hregistered, hid, hkey⟩
  refine ⟨hdeclared, fun p hne hp => ?_, fun p hne hnone hp => ?_, fun hids => ⟨fun h => ?_, ?_⟩,
    language_eq_none_iff ..⟩
  · exact (hlanguage p.id).mpr ⟨hne, p, resolve?_of_holds_extension hp, rfl⟩
  · exact (hlanguage p.id).mpr ⟨hne, p, resolve?_of_holds_name hnone hp, rfl⟩
  · obtain ⟨language, h⟩ := Option.ne_none_iff_exists'.mp h
    obtain ⟨hne, p, hregistered, -, hkey⟩ := hdeclared language h
    exact ⟨hne, p, hregistered, hkey⟩
  · rintro ⟨hne, p, hregistered, hkey⟩
    obtain ⟨q, hq⟩ := Option.ne_none_iff_exists'.mp (resolve?_ne_none_of_nodup hids hregistered hkey)
    rw [(hlanguage q.id).mpr ⟨hne, q, hq, rfl⟩]
    exact Option.some_ne_none _

open Registry in
theorem language_follows_keys_golang : ∃ python go,
    Profile.ofDefinition .python = .ok python ∧ Profile.ofDefinition .go = .ok go ∧
    ∀ structurer parser read cache,
      (processFile structurer parser (ofHistory [python, go]) read ⟨"lib.PYI", "lib.PYI"⟩
        cache).1.report.language = some "python" ∧
      (processFile structurer parser (ofHistory [python, go]) read ⟨"notes.golang", "notes.golang"⟩
        cache).1.report.language = some "go" := by
  obtain ⟨python, hpython⟩ := Definition.exists_python
  obtain ⟨go, hgo⟩ := Definition.exists_go
  obtain ⟨hid, -, hextensions⟩ := Profile.keys_of_ofDefinition hpython
  obtain ⟨hid', -, hextensions'⟩ := Profile.keys_of_ofDefinition hgo
  have hpyi : Holds (fun q => normalize "PYI" ∈ extensionKeys q) [python, go] python := by
    refine ⟨[], [go], rfl, ?_, ?_⟩
    · show normalize "PYI" ∈ extensionKeys python
      rw [extensionKeys, hextensions]
      decide
    · rw [List.forall_mem_singleton, hid, hid']
      show normalize "PYI" ∉ extensionKeys go ∧ "go" ≠ "python"
      rw [extensionKeys, hextensions']
      decide
  have hnone : ∀ p ∈ (ofHistory [python, go]).sorted, normalize "golang" ∉ extensionKeys p := by
    intro p hp
    rcases List.mem_pair.mp (mem_of_mem_sorted hp) with rfl | rfl
    · rw [extensionKeys, hextensions]
      decide
    · exact golang_not_mem_extensionKeys hgo
  have hupper : (PathName.extension? "lib.PYI").getD "" = "PYI" := by decide
  have hextension : (PathName.extension? "notes.golang").getD "" = "golang" := by decide
  refine ⟨python, go, hpython, hgo, fun structurer parser read cache => ⟨?_, ?_⟩⟩
  · have hkeys := language_follows_keys [python, go] structurer parser read
      ⟨"lib.PYI", "lib.PYI"⟩ cache
    simp only [hupper] at hkeys
    rw [hkeys.2.1 python (by decide) hpyi, hid]
    rfl
  · have hkeys := language_follows_keys [python, go] structurer parser read
      ⟨"notes.golang", "notes.golang"⟩ cache
    simp only [hextension] at hkeys
    rw [hkeys.2.2.1 go (by decide) hnone (holds_golang hgo [python]), hid']
    rfl

end CodeAtlas
