import CodeAtlas.Proofs.Scan.Outcomes
import CodeAtlas.Proofs.Structure.Faults

/-!
The work on a file, seen from the cache.  Everything that is done to a file before a query is needed
depends on the file alone; then the structurer makes at most one request of the cache, and the
compiled query is all that it takes from the answer.  `Work` is this shape, and
`processFile_eq_through` says that `processFile` has it.  A reachable cache answers with what
compiling on the spot gives, so the outcome is the file's own (`processFile_fst`,
`processFiles_fst`).
-/

namespace CodeAtlas

variable [QueryEngine]

/-- The work on a file, up to the request that it makes of the cache. -/
inductive Work where
  /-- No query is needed. -/
  | ended (outcome : FileOutcome)
  /-- The compiled query of a key is needed, and the work goes on from the answer. -/
  | asks (key : QueryKey) (resume : Except Failure Query → FileOutcome)

namespace Work

/-- The work on a file whose entities are still to be had. -/
def ofStructuring (start : FileReport) : Structuring → Work
  | .ended result => .ended (.ofResult start true result)
  | .asks key resume => .asks key fun answer => .ofResult start true (resume answer)

def ofBytes (structurer : Structurer) (parser : Parser) (p : Profile) (start : FileReport)
    (bytes : List UInt8) : Work :=
  match SourceFile.parseValid parser p start.path bytes with
  | .error e => .ended (.ofResult start false (.error e))
  | .ok source => ofStructuring start (structurer p source)

def ofFile (structurer : Structurer) (parser : Parser) (profiles : Registry)
    (read : String → Except OsError (List UInt8)) (file : FoundFile) : Work :=
  match profiles.profileFor? file.relative with
  | none => .ended (.unsupported file.relative ((PathName.extension? file.relative).getD ""))
  | some p =>
    let start := FileOutcome.begun file.relative p.id (p.isTestFile file.relative)
    match read file.path with
    | .error e => .ended (.ofResult start false (.error (.io file.relative e.message)))
    | .ok bytes => ofBytes structurer parser p start bytes

/-- The work in one go. -/
def through (cache : QueryCache) : Work → FileOutcome × QueryCache
  | .ended outcome => (outcome, cache)
  | .asks key resume => (resume ((cache.get key).1.map fun q => q.query), (cache.get key).2)

/-- What comes of the work when the query is compiled on the spot. -/
def outcome : Work → FileOutcome
  | .ended outcome => outcome
  | .asks key resume => resume (QueryCache.compile key)

theorem through_fst (w : Work) {cache : QueryCache} (hc : cache.Reachable) :
    (w.through cache).1 = w.outcome := by
  cases w with
  | ended outcome => rfl
  | asks key resume =>
    show resume _ = resume _
    rw [hc.answer]

theorem reachable_through (w : Work) {cache : QueryCache} (hc : cache.Reachable) :
    (w.through cache).2.Reachable := by
  cases w with
  | ended outcome => exact hc
  | asks key resume => exact hc.get key

/-! ## The work of `processFile` -/

theorem ofStructuring_through (start : FileReport) (s : Structuring) (cache : QueryCache) :
    (ofStructuring start s).through cache =
      (FileOutcome.ofResult start true (s.through cache).1, (s.through cache).2) := by
  cases s with
  | ended result => rfl
  | asks key resume => rfl

theorem ofBytes_through (structurer : Structurer) (parser : Parser) (p : Profile)
    (start : FileReport) (bytes : List UInt8) (cache : QueryCache) :
    (ofBytes structurer parser p start bytes).through cache =
      FileOutcome.ofBytes structurer parser p start bytes cache := by
  unfold ofBytes FileOutcome.ofBytes
  cases SourceFile.parseValid parser p start.path bytes with
  | error e => rfl
  | ok source => exact ofStructuring_through start (structurer p source) cache

theorem path_outcome (structurer : Structurer) (parser : Parser) (profiles : Registry)
    (read : String → Except OsError (List UInt8)) (file : FoundFile) :
    (ofFile structurer parser profiles read file).outcome.report.path = file.relative := by
  have hresult : ∀ (start : FileReport) (parsed : Bool) (result : Except Failure (List Entity)),
      (FileOutcome.ofResult start parsed result).report.path = start.path := by
    intro start parsed result
    cases result <;> rfl
  unfold ofFile
  split
  · rfl
  · dsimp only
    split
    · rfl
    · unfold ofBytes
      split
      · rfl
      · unfold ofStructuring
        split
        · exact hresult _ _ _
        · exact hresult _ _ _

/-- The work depends on the relative path and on what reading the file gives. -/
theorem ofFile_congr (structurer : Structurer) (parser : Parser) (profiles : Registry)
    {read₁ read₂ : String → Except OsError (List UInt8)} {f₁ f₂ : FoundFile}
    (hrelative : f₁.relative = f₂.relative) (hread : read₁ f₁.path = read₂ f₂.path) :
    ofFile structurer parser profiles read₁ f₁ = ofFile structurer parser profiles read₂ f₂ := by
  unfold ofFile
  rw [hrelative, hread]

end Work

/-- The work on a file makes one request of the cache at most, and nothing else depends on it. -/
theorem processFile_eq_through (structurer : Structurer) (parser : Parser) (profiles : Registry)
    (read : String → Except OsError (List UInt8)) (file : FoundFile) (cache : QueryCache) :
    processFile structurer parser profiles read file cache =
      (Work.ofFile structurer parser profiles read file).through cache := by
  unfold processFile Work.ofFile
  cases profiles.profileFor? file.relative with
  | none => rfl
  | some p =>
    dsimp only
    cases read file.path with
    | error e => rfl
    | ok bytes => exact (Work.ofBytes_through structurer parser p _ bytes cache).symm

section

variable (structurer : Structurer) (parser : Parser) (profiles : Registry)
  (read : String → Except OsError (List UInt8)) {cache : QueryCache}

theorem processFile_fst (hc : cache.Reachable) (file : FoundFile) :
    (processFile structurer parser profiles read file cache).1 =
      (Work.ofFile structurer parser profiles read file).outcome := by
  rw [processFile_eq_through]
  exact Work.through_fst _ hc

theorem processFiles_fst (hc : cache.Reachable) (files : List FoundFile) :
    (processFiles structurer parser profiles read files cache).1 =
      files.map fun f => (Work.ofFile structurer parser profiles read f).outcome := by
  induction files generalizing cache with
  | nil => rfl
  | cons f fs ih =>
    have hnext : (processFile structurer parser profiles read f cache).2.Reachable := by
      rw [processFile_eq_through]
      exact Work.reachable_through _ hc
    show (processFile structurer parser profiles read f cache).1 ::
      (processFiles structurer parser profiles read fs
        (processFile structurer parser profiles read f cache).2).1 = _
    rw [processFile_fst structurer parser profiles read hc, ih hnext]
    rfl

theorem processFile_congr {read₁ read₂ : String → Except OsError (List UInt8)} {file : FoundFile}
    (h : read₁ file.path = read₂ file.path) (cache : QueryCache) :
    processFile structurer parser profiles read₁ file cache =
      processFile structurer parser profiles read₂ file cache := by
  rw [processFile_eq_through, processFile_eq_through,
    Work.ofFile_congr structurer parser profiles rfl h]

theorem processFiles_congr {read₁ read₂ : String → Except OsError (List UInt8)}
    {files : List FoundFile} (h : ∀ f ∈ files, read₁ f.path = read₂ f.path) (cache : QueryCache) :
    processFiles structurer parser profiles read₁ files cache =
      processFiles structurer parser profiles read₂ files cache := by
  induction files generalizing cache with
  | nil => rfl
  | cons f fs ih =>
    obtain ⟨hf, hfs⟩ := List.forall_mem_cons.mp h
    unfold processFiles
    rw [processFile_congr structurer parser profiles hf]
    dsimp only
    rw [ih hfs]

end

end CodeAtlas
