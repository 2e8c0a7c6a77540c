import CodeAtlas.Analyzer
import CodeAtlas.Proofs.Structure.Faults

/-!
How the work on a file ends.  A file without a profile is unsupported; one that cannot be read or
that the grammar refuses is rejected before it counts as parsed; one whose structure query does not
fit the grammar fails after that; every other file is done.  `Ends` lists these four ways, each with
what the report then says, and `ends_processFile` shows that there is no fifth.

From it follows what counters and reports rely on (`FileOutcome.Settled`): the state, the errors,
the entities, the language and the flag of an outcome agree with each other.
-/

namespace CodeAtlas

/-! ## Which step fails in which way -/

theorem Failure.kind_of_location {f : Failure} (h : f.location?.isSome = true) :
    f.kind = .parse := by
  cases f with
  | parse path reason location => rfl
  | _ => cases h

theorem SourceFile.kind_of_parseValid {parser : Parser} {p : Profile} {path : String}
    {bytes : List UInt8} {f : Failure} (h : parseValid parser p path bytes = .error f) :
    f.kind = .parse := by
  unfold parseValid at h
  dsimp only at h
  split at h
  · cases h
    rfl
  · unfold checked at h
    split at h
    · cases h
      rfl
    · cases h

section

variable [QueryEngine]

theorem QueryCache.kind_of_compile {key : QueryKey} {f : Failure} (h : compile key = .error f) :
    f.kind = .query := by
  unfold compile at h
  cases hq : Query.compile key.grammar.handle key.pattern with
  | error reason =>
    rw [hq] at h
    cases h
    rfl
  | ok q =>
    rw [hq] at h
    cases h

theorem QueryCache.kind_of_get {c : QueryCache} {key : QueryKey} {f : Failure}
    (h : (c.get key).1 = .error f) : f.kind = .query := by
  unfold get at h
  split at h
  · cases h
  · dsimp only at h
    split at h
    · rename_i hcompile
      cases h
      exact kind_of_compile hcompile
    · cases h

end

theorem Label.kind_of_checkAll {p : Profile} {grammar : String} {labels : List String} {f : Failure}
    (h : checkAll p grammar labels = .error f) : f.kind = .query := by
  induction labels with
  | nil => cases h
  | cons label rest ih =>
    unfold checkAll at h
    split at h
    · cases h
      rfl
    · cases hrest : checkAll p grammar rest with
      | error e =>
        rw [hrest] at h
        cases h
        exact ih hrest
      | ok table =>
        rw [hrest] at h
        cases h

theorem SourceFile.kind_of_structured [QueryEngine] {source : SourceFile} {p : Profile}
    {cache : QueryCache} {f : Failure} (h : (source.structured p cache).1 = .error f) : f.kind = .query := by
  unfold structured at h
  split at h
  · rename_i hgrammar
    cases h
    unfold grammarIn at hgrammar
    split at hgrammar
    · cases hgrammar
    · cases hgrammar
      rfl
  · split at h
    · rename_i hget
      cases h
      exact QueryCache.kind_of_get (congrArg Prod.fst hget)
    · split at h
      · rename_i hlabels
        cases h
        exact Label.kind_of_checkAll hlabels
      · cases h

/-! ## The four ways -/

namespace FileOutcome

def begun (path language : String) (isTest : Bool) : FileReport :=
  { FileReport.start path (some language) with isTest := isTest }

/-- The ways in which the work on a file ends. -/
inductive Ends : FileOutcome → Prop where
  | unsupported (path extension : String) : Ends (.unsupported path extension)
  /-- The file cannot be read, or the grammar does not accept its text. -/
  | rejected (path language : String) (isTest : Bool) (f : Failure)
      (h : f.kind = .io ∨ f.kind = .parse) :
      Ends (ofResult (begun path language isTest) false (.error f))
  /-- The structure query does not fit the grammar. -/
  | unstructured (path language : String) (isTest : Bool) (f : Failure) (h : f.kind = .query) :
      Ends (ofResult (begun path language isTest) true (.error f))
  | done (path language : String) (isTest : Bool) (entities : List Entity) :
      Ends (ofResult (begun path language isTest) true (.ok entities))

theorem ends_ofBytes [QueryEngine] (parser : Parser) (p : Profile) (path language : String)
    (isTest : Bool) (bytes : List UInt8) (cache : QueryCache) :
    Ends (ofBytes .query parser p (begun path language isTest) bytes cache).1 := by
  unfold ofBytes
  split
  · rename_i f hparse
    exact .rejected path language isTest f (.inr (SourceFile.kind_of_parseValid hparse))
  · rename_i source hparse
    rw [SourceFile.through_query]
    show Ends (ofResult _ true (source.structured p cache).1)
    cases hstructured : (source.structured p cache).1 with
    | error f =>
      exact .unstructured path language isTest f (SourceFile.kind_of_structured hstructured)
    | ok entities => exact .done path language isTest entities

end FileOutcome

theorem ends_processFile [QueryEngine] (parser : Parser) (profiles : Registry)
    (read : String → Except OsError (List UInt8)) (file : FoundFile) (cache : QueryCache) :
    (processFile .query parser profiles read file cache).1.Ends := by
  unfold processFile
  split
  · exact .unsupported _ _
  · rename_i p hprofile
    dsimp only
    split
    · rename_i e hread
      exact .rejected file.relative p.id (p.isTestFile file.relative) _ (.inl rfl)
    · rename_i bytes hread
      exact FileOutcome.ends_ofBytes parser p file.relative p.id (p.isTestFile file.relative) bytes
        cache

/-! ## What an outcome says -/

/-- The parts of an outcome agree. -/
structure FileOutcome.Settled (o : FileOutcome) : Prop where
  terminal : o.report.state.isTerminal = true
  /-- Done without errors and in a language, or failed with one error and without entities. -/
  ended : (o.report.state = .done ∧ o.report.errors = [] ∧ o.report.language.isSome = true) ∨
    (o.report.state = .failed ∧ (∃ e, o.report.errors = [e]) ∧ o.report.entities = [])
  unsupported : (∃ e ∈ o.report.errors, e.kind = .unsupportedLanguage) ↔ o.report.language = none
  /-- Only faults of the text have a place. -/
  located : ∀ e ∈ o.report.errors, e.location.isSome = true → e.kind = .parse
  parsed : o.parsed = true ↔
    o.report.state = .done ∨ ∃ e ∈ o.report.errors, e.kind = .query

/-- An outcome whose report records one failure, with the flag that fits it, is settled. -/
theorem FileOutcome.settled_fail {r : FileReport} {f : Failure} {parsed : Bool}
    (herrors : r.errors = [])
    (hlanguage : f.kind = .unsupportedLanguage ↔ r.language = none)
    (hparsed : parsed = true ↔ f.kind = .query) :
    (FileOutcome.mk (r.fail f.toError) parsed).Settled := by
  have hfail : (r.fail f.toError).errors = [f.toError] := by
    rw [FileReport.fail, herrors, List.nil_append]
  refine ⟨rfl, .inr ⟨rfl, ⟨_, hfail⟩, rfl⟩, ?_, ?_, ?_⟩
  all_goals simp only [hfail, List.mem_singleton, exists_eq_left, forall_eq]
  · exact hlanguage
  · exact Failure.kind_of_location
  · simpa [FileReport.fail, Failure.toError] using hparsed

theorem FileOutcome.Ends.settled {o : FileOutcome} (h : o.Ends) : o.Settled := by
  cases h with
  | unsupported path extension =>
    exact settled_fail rfl (iff_of_true rfl rfl) (by simp [Failure.kind])
  | rejected path language isTest f h =>
    have hkind : f.kind ≠ .unsupportedLanguage ∧ f.kind ≠ .query := by
      rcases h with h | h <;> simp [h]
    exact settled_fail rfl (by simp [begun, FileReport.start, hkind]) (by simp [hkind])
  | unstructured path language isTest f h =>
    exact settled_fail rfl (by simp [begun, FileReport.start, h]) (by simp [h])
  | done path language isTest entities =>
    refine ⟨rfl, .inl ⟨rfl, rfl, rfl⟩, ?_, ?_, ?_⟩
    all_goals simp [ofResult, begun, FileReport.start]

/-- **Every file ends in a consistent report.**  Whatever its path, its bytes, their tree, the
registered profiles and the cache: the work on a file ends done or failed, the report says which in
each of its parts alike, and the file counts as parsed exactly if it is done or its structure query
was at fault. -/
theorem processFile_settled [QueryEngine] (parser : Parser) (profiles : Registry)
    (read : String → Except OsError (List UInt8)) (file : FoundFile) (cache : QueryCache) :
    (processFile .query parser profiles read file cache).1.Settled :=
  (ends_processFile parser profiles read file cache).settled

end CodeAtlas
