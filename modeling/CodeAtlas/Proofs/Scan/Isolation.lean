import CodeAtlas.Proofs.Scan.Cancellation

/-!
Files of a scan do not see each other.  `Analyzer.MayReport` collects the reports that a scan may
make, over all schedules of its workers and all moments of cancellation.  Whatever such a report
says about a file is what the file's own work comes to, and this depends on the profiles, on the
path below the root and on the bytes alone:

    two scans, one file in both:  the same entry in both reports    (file_report_isolated)
-/

namespace CodeAtlas

open QueryCache (Traffic)

/-- The entry for its path in a report is this one.  A report that is not marked as cancelled has
the entry. -/
structure ScanReport.Shows (r : ScanReport) (entry : FileReport) : Prop where
  only : ∀ other ∈ r.files, other.path = entry.path → other = entry
  present : r.cancelled = false → entry ∈ r.files

namespace Analyzer

section

variable [QueryEngine] [Glob.Engine]

/-- A scan of a root may make this report: some schedule leads to it, from a cache that earlier
requests have left. -/
def MayReport (a : Analyzer) (parser : Parser) (d : Disk) (root : String) (r : ScanReport) : Prop :=
  ∃ files earlier events, a.files d root = .ok files ∧
    (Traffic.start.run earlier).cache = a.cache ∧
    ((a.task parser d root files).run (ScanTask.start (Traffic.start.run earlier)) events).report =
      some r

variable {a : Analyzer} {d : Disk} {root : String} {files : List FoundFile}

theorem file_of_relative (h : a.files d root = .ok files) {f g : FoundFile} (hf : f ∈ files)
    (hg : g ∈ files) (heq : f.relative = g.relative) : f = g := by
  have hpath := (files_spec h).2
  have hsame : f.path = g.path := by rw [hpath f hf, hpath g hg, heq]
  cases f
  cases g
  cases hsame
  cases heq
  rfl

/-- A report on some of the files shows of each file what its own work comes to. -/
theorem shows_of_files {parser : Parser} (h : a.files d root = .ok files) {f : FoundFile}
    (hf : f ∈ files) (begun : FoundFile → Bool) {r : ScanReport}
    (hr : r.files = (files.filter begun).map
      fun f => (Work.ofFile a.structurer parser a.profiles d.read f).outcome.report)
    (hall : r.cancelled = false → files.filter begun = files) :
    r.Shows (Work.ofFile a.structurer parser a.profiles d.read f).outcome.report where
  only other hother hpath := by
    rw [hr] at hother
    obtain ⟨g, hg, rfl⟩ := List.mem_map.mp hother
    rw [Work.path_outcome, Work.path_outcome] at hpath
    rw [file_of_relative h (List.mem_of_mem_filter hg) hf hpath]
  present hcancelled := by
    rw [hr, hall hcancelled]
    exact List.mem_map_of_mem hf

theorem MayReport.shows {parser : Parser} {r : ScanReport} (hr : a.MayReport parser d root r)
    (h : a.files d root = .ok files) {f : FoundFile} (hf : f ∈ files) :
    r.Shows (Work.ofFile a.structurer parser a.profiles d.read f).outcome.report := by
  obtain ⟨files', earlier, events, hfiles, -, hreport⟩ := hr
  obtain rfl : files' = files := Except.ok.inj (hfiles.symm.trans h)
  have hreports := reports_run parser earlier hreport
  exact shows_of_files h hf _ (files_of_reports h hreports) (filter_began_of_reports hreports)

theorem exists_scan_shows (parser : Parser) (hc : a.cache.Reachable) (h : a.files d root = .ok files)
    {f : FoundFile} (hf : f ∈ files) :
    ∃ r a', a.scan parser d root false = .ok (r, a') ∧ r.cancelled = false ∧
      r.Shows (Work.ofFile a.structurer parser a.profiles d.read f).outcome.report := by
  obtain ⟨a', hscan⟩ := scanBegun_eq parser hc h (fun _ => true) false
  have hall : files.filter (fun _ => true) = files := List.filter_true files
  have hsorted := Work.outcomes_sorted a.structurer parser a.profiles d.read (files_spec h).1
  refine ⟨_, a', hscan, rfl, shows_of_files h hf (fun _ => true) ?_ fun _ => hall⟩
  rw [hall]
  exact (ScanReport.files_ofOutcomes root _ _ hsorted).trans List.map_map

end

end Analyzer

/-- **Files are isolated from each other.**  Two analyzers with the same profiles and the same
structurer, with any options and any reachable caches, scan two roots of any two file systems.  If a
file with the same path below the root and the same bytes is among the files of both scans, there is
one entry that every report of either scan shows for this path: under every schedule, and when each
scan runs to its end on its own. -/
theorem file_report_isolated [QueryEngine] [Glob.Engine] (a₁ a₂ : Analyzer)
    (hprofiles : a₁.profiles = a₂.profiles) (hstructurer : a₁.structurer = a₂.structurer)
    (hcache₁ : a₁.cache.Reachable) (hcache₂ : a₂.cache.Reachable) (parser : Parser)
    {d₁ d₂ : Disk} {root₁ root₂ : String} {files₁ files₂ : List FoundFile}
    (hfiles₁ : a₁.files d₁ root₁ = .ok files₁) (hfiles₂ : a₂.files d₂ root₂ = .ok files₂)
    {f₁ f₂ : FoundFile} (hf₁ : f₁ ∈ files₁) (hf₂ : f₂ ∈ files₂)
    (hrelative : f₁.relative = f₂.relative) (hbytes : d₁.read f₁.path = d₂.read f₂.path) :
    ∃ entry : FileReport, entry.path = f₁.relative ∧
      (∀ r₁, a₁.MayReport parser d₁ root₁ r₁ → r₁.Shows entry) ∧
      (∀ r₂, a₂.MayReport parser d₂ root₂ r₂ → r₂.Shows entry) ∧
      (∃ r₁ a₁', a₁.scan parser d₁ root₁ false = .ok (r₁, a₁') ∧ r₁.cancelled = false ∧
        r₁.Shows entry) ∧
      (∃ r₂ a₂', a₂.scan parser d₂ root₂ false = .ok (r₂, a₂') ∧ r₂.cancelled = false ∧
        r₂.Shows entry) := by
  -- the work of a file is where the two scans meet; all the rest is about one of them
  have hsame : Work.ofFile a₁.structurer parser a₁.profiles d₁.read f₁ =
      Work.ofFile a₂.structurer parser a₂.profiles d₂.read f₂ := by
    rw [hprofiles, hstructurer]
    exact Work.ofFile_congr a₂.structurer parser a₂.profiles hrelative hbytes
  refine ⟨(Work.ofFile a₁.structurer parser a₁.profiles d₁.read f₁).outcome.report,
    Work.path_outcome a₁.structurer parser a₁.profiles d₁.read f₁, ?_, ?_, ?_, ?_⟩
  · intro r₁ hr₁
    exact hr₁.shows hfiles₁ hf₁
  · intro r₂ hr₂
    rw [hsame]
    exact hr₂.shows hfiles₂ hf₂
  · exact Analyzer.exists_scan_shows parser hcache₁ hfiles₁ hf₁
  · rw [hsame]
    exact Analyzer.exists_scan_shows parser hcache₂ hfiles₂ hf₂

/-- The same profiles with other options, and a cache that has seen a request. -/
def Analyzer.pythonHidden : Analyzer where
  profiles := Analyzer.pythonOnly.profiles
  cache := (QueryCache.empty.get ⟨default, "(broken"⟩).2
  structurer := .query
  config := { maxWorkers := 4, includeHidden := true }
  ignore := { length := 0, accepts := fun _ => false }
  valid := rfl

/-- A hidden file without a language. -/
def FoundFile.hiddenC : FoundFile := ⟨"./.c", ".c"⟩

def Disk.neighbours : Disk where
  top := .directory [("b.py", .file (Text.Utf8.encode "def f(): 0")), (".c", .file [255])]
  working := []

theorem file_report_isolated_neighbours :
    Analyzer.pythonOnly.files .mixed "." = .ok [.letterA, .scriptB, .scriptD] ∧
    Analyzer.pythonHidden.files .neighbours "." = .ok [.hiddenC, .scriptB] ∧
    ∃ entry : FileReport, entry.path = "b.py" ∧
      (∃ r₁ a₁', Analyzer.pythonOnly.scan .oneFunction .mixed "." false = .ok (r₁, a₁') ∧
        entry ∈ r₁.files) ∧
      ∃ r₂ a₂', Analyzer.pythonHidden.scan .oneFunction .neighbours "." false = .ok (r₂, a₂') ∧
        entry ∈ r₂.files := by
  have hfiles₁ := Analyzer.files_mixed
  have hfiles₂ : Analyzer.pythonHidden.files .neighbours "." = .ok [.hiddenC, .scriptB] := by
    -- the cache is no part of it
    show Selection.collect .neighbours { maxWorkers := 4, includeHidden := true }
      (fun _ => false) "." = _
    cbv
  have hmem₁ : FoundFile.scriptB ∈ [FoundFile.letterA, .scriptB, .scriptD] := by decide
  have hmem₂ : FoundFile.scriptB ∈ [FoundFile.hiddenC, .scriptB] := by decide
  have hbytes : Disk.mixed.read FoundFile.scriptB.path =
      Disk.neighbours.read FoundFile.scriptB.path := by
    cbv
  obtain ⟨entry, hpath, -, -, hscan₁, hscan₂⟩ :=
    file_report_isolated Analyzer.pythonOnly Analyzer.pythonHidden rfl rfl
      QueryCache.reachable_empty (QueryCache.reachable_empty.get _) .oneFunction
      hfiles₁ hfiles₂ hmem₁ hmem₂ rfl hbytes
  obtain ⟨r₁, a₁', hscan₁, hdone₁, hshows₁⟩ := hscan₁
  obtain ⟨r₂, a₂', hscan₂, hdone₂, hshows₂⟩ := hscan₂
  exact ⟨hfiles₁, hfiles₂, entry, hpath, ⟨r₁, a₁', hscan₁, hshows₁.present hdone₁⟩,
    ⟨r₂, a₂', hscan₂, hshows₂.present hdone₂⟩⟩

end CodeAtlas
