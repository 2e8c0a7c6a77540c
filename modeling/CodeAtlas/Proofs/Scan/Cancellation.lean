import CodeAtlas.Proofs.Keyed
import CodeAtlas.Proofs.Scan.Counters
import CodeAtlas.Proofs.Scan.Schedule

/-!
Scans of an analyzer that may be cancelled.  Under every schedule the report is the one that a scan
makes which runs the files begun before the token was set, one after another:

    every schedule:  report = scanBegun of the files begun        (scan_reports_begun_files)
-/

namespace CodeAtlas

open QueryCache (Traffic)

/-! ## Analyzers -/

/-- Outcomes of files in order make a report with their reports in the same order. -/
theorem ScanReport.files_ofOutcomes (root : String) (cancelled : Bool) (elapsedMs : Nat)
    {outcomes : List FileOutcome}
    (h : outcomes.Pairwise fun x y => x.report.path ≤ y.report.path) :
    (ofOutcomes root outcomes cancelled elapsedMs).files = outcomes.map (·.report) := by
  refine List.mergeSort_of_pairwise (List.pairwise_map.mpr (h.imp fun hle => ?_))
  exact decide_eq_true hle

/-- The outcomes of files in order are in the order of the paths in their reports. -/
theorem Work.outcomes_sorted [QueryEngine] (structurer : Structurer) (parser : Parser)
    (profiles : Registry) (read : String → Except OsError (List UInt8)) {files : List FoundFile}
    (h : files.Pairwise (fun f g => f.relative ≤ g.relative)) :
    (files.map fun f => (ofFile structurer parser profiles read f).outcome).Pairwise
      fun x y => x.report.path ≤ y.report.path := by
  refine List.pairwise_map.mpr (h.imp fun hle => ?_)
  rw [path_outcome, path_outcome]
  exact hle

namespace Analyzer

section

variable [QueryEngine] [Glob.Engine]

def task (a : Analyzer) (parser : Parser) (d : Disk) (root : String) (files : List FoundFile) :
    ScanTask :=
  ⟨root, files, Work.ofFile a.structurer parser a.profiles d.read⟩

variable {a : Analyzer} {d : Disk} {root : String} {files : List FoundFile}

/-- The files of a scan are in the order of their paths below the root, by which they are read. -/
theorem files_spec (h : a.files d root = .ok files) :
    files.Pairwise (fun f g => f.relative ≤ g.relative) ∧
      ∀ f ∈ files, f.path = PathName.joined root f.relative := by
  unfold Analyzer.files Selection.collect at h
  split at h
  · cases h
  · cases h
    constructor
    · exact List.pairwise_map.mpr (sort_keys_le id _)
    · intro f hf
      obtain ⟨relative, -, rfl⟩ := List.mem_map.mp hf
      rfl

theorem scanBegun_eq (parser : Parser) (hc : a.cache.Reachable) (h : a.files d root = .ok files)
    (begun : FoundFile → Bool) (cancelled : Bool) :
    ∃ a', a.scanBegun parser d root begun cancelled = .ok (.ofOutcomes root
      ((files.filter begun).map fun f => ((a.task parser d root files).work f).outcome)
      cancelled 0, a') := by
  rw [scanBegun_of_files h, processFiles_fst a.structurer parser a.profiles d.read hc]
  exact ⟨_, rfl⟩

theorem reports_run (parser : Parser) (earlier : List QueryCache.Event) {events : List ScanEvent}
    {r : ScanReport} (h : ((a.task parser d root files).run
      (ScanTask.start (Traffic.start.run earlier)) events).report = some r) :
    (a.task parser d root files).Reports events r :=
  ((ScanTask.invariant_start _ (Traffic.sound_run_start earlier)).run events).reports r h

/-- The files of a report are the files begun, in order, with the reports of each alone. -/
theorem files_of_reports {parser : Parser} (hfiles : a.files d root = .ok files)
    {events : List ScanEvent} {r : ScanReport}
    (h : (a.task parser d root files).Reports events r) :
    r.files = (files.filter (ScanEvent.began events)).map
      fun f => (Work.ofFile a.structurer parser a.profiles d.read f).outcome.report := by
  obtain ⟨elapsedMs, hr⟩ := h.report
  have hsorted := (files_spec hfiles).1.sublist (List.filter_sublist (p := ScanEvent.began events))
  have houtcomes := Work.outcomes_sorted a.structurer parser a.profiles d.read hsorted
  rw [hr]
  exact (ScanReport.files_ofOutcomes root _ _ houtcomes).trans List.map_map

/-- A report that is not marked as cancelled has all files. -/
theorem filter_began_of_reports {parser : Parser} {events : List ScanEvent} {r : ScanReport}
    (h : (a.task parser d root files).Reports events r) (hr : r.cancelled = false) :
    files.filter (ScanEvent.began events) = files :=
  List.filter_eq_self.mpr (h.complete hr)

end

end Analyzer

/-- **A scan reports the files begun before it was cancelled.**  Let the workers of a scan take
their steps in any order, let others use the cache in between, and let the token be set at any
moment.  If a report is made, its files are those whose worker saw the token unset, in the order of
their paths, each with the report that the file gets on its own; its counters are the fold over the
same outcomes; a report that is not marked as cancelled has all files; and a scan that runs these
files one after another makes the same report.  A report can be made as soon as every worker has
taken six steps. -/
theorem scan_reports_begun_files [QueryEngine] [Glob.Engine] (a : Analyzer) (parser : Parser)
    (d : Disk) (root : String) {files : List FoundFile} (hfiles : a.files d root = .ok files)
    (earlier : List QueryCache.Event) (hcache : (Traffic.start.run earlier).cache = a.cache)
    (events : List ScanEvent) :
    (∀ r : ScanReport, ((a.task parser d root files).run
        (ScanTask.start (Traffic.start.run earlier)) events).report = some r →
      r.files = (files.filter (ScanEvent.began events)).map
        (fun f => (processFile a.structurer parser a.profiles d.read f .empty).1.report) ∧
      r.files.Pairwise (fun x y => x.path ≤ y.path) ∧
      r.counters = .ofOutcomes ((files.filter (ScanEvent.began events)).map
        fun f => (processFile a.structurer parser a.profiles d.read f .empty).1) ∧
      (r.cancelled = false → r.files.map (·.path) = files.map (·.relative)) ∧
      (r.cancelled = true → .cancel ∈ events) ∧
      ∃ a', a.scanBegun parser d root (ScanEvent.began events) r.cancelled =
        .ok ({ r with elapsedMs := 0 }, a')) ∧
    (∀ (f : FoundFile) (cache : QueryCache), cache.Reachable →
      (processFile a.structurer parser a.profiles d.read f cache).1 =
        (processFile a.structurer parser a.profiles d.read f .empty).1) ∧
    ((∀ f ∈ files, 6 ≤ events.count (.step f)) → ∀ elapsedMs, ∃ r,
      ((a.task parser d root files).run (ScanTask.start (Traffic.start.run earlier))
        (events ++ [.finish elapsedMs])).report = some r) := by
  have halone : ∀ (f : FoundFile) (cache : QueryCache), cache.Reachable →
      (processFile a.structurer parser a.profiles d.read f cache).1 =
        (Work.ofFile a.structurer parser a.profiles d.read f).outcome :=
    fun f cache hc => processFile_fst a.structurer parser a.profiles d.read hc f
  simp only [halone _ .empty QueryCache.reachable_empty]
  refine ⟨fun r hr => ?_, halone, fun hsteps elapsedMs => ?_⟩
  · have hreports := Analyzer.reports_run parser earlier hr
    have hlist := Analyzer.files_of_reports hfiles hreports
    obtain ⟨elapsedMs, hr⟩ := hreports.report
    refine ⟨hlist, ?_, ?_, fun hcomplete => ?_, hreports.marked, ?_⟩
    · rw [hr]
      exact sort_keys_le FileReport.path _
    · rw [hr]
      rfl
    · rw [hlist, Analyzer.filter_began_of_reports hreports hcomplete, List.map_map]
      exact List.map_congr_left fun f _ => Work.path_outcome a.structurer parser a.profiles d.read f
    · obtain ⟨a', ha'⟩ := Analyzer.scanBegun_eq parser ⟨earlier, hcache⟩ hfiles
        (ScanEvent.began events) r.cancelled
      refine ⟨a', ha'.trans ?_⟩
      rw [hr]
      rfl
  · have hinv := (ScanTask.invariant_start (a.task parser d root files)
      (Traffic.sound_run_start earlier)).run events
    unfold ScanTask.run
    rw [List.foldl_append]
    exact ScanTask.exists_report (hinv.isOver hsteps) elapsedMs

/-- One worker starts, the token is set, and the others look at it afterwards. -/
def ScanEvent.cancelledMidway : List ScanEvent :=
  [.step .scriptB, .cancel] ++ List.replicate 6 (.step .letterA) ++
    List.replicate 5 (.step .scriptB) ++ List.replicate 6 (.step .scriptD)

theorem scan_reports_begun_files_midway :
    Analyzer.pythonOnly.files .mixed "." = .ok [.letterA, .scriptB, .scriptD] ∧
    (Traffic.start.run []).cache = Analyzer.pythonOnly.cache ∧
    ∃ r, ((Analyzer.pythonOnly.task .oneFunction .mixed "." [.letterA, .scriptB, .scriptD]).run
        (ScanTask.start (Traffic.start.run []))
        (ScanEvent.cancelledMidway ++ [.finish 7])).report = some r ∧
      r.files.map (fun f => (f.path, f.state, f.entities.map fun e => e.facts.name)) =
        [("b.py", .done, ["f"])] ∧
      r.counters = ⟨1, 1, 0, 0, 0, 1, [("python", 1)]⟩ := by
  have hscan := scan_reports_begun_files Analyzer.pythonOnly .oneFunction .mixed "."
    Analyzer.files_mixed [] rfl
  obtain ⟨r, hr⟩ := (hscan ScanEvent.cancelledMidway).2.2 (by decide) 7
  have hbegan : [FoundFile.letterA, .scriptB, .scriptD].filter
      (ScanEvent.began (ScanEvent.cancelledMidway ++ [.finish 7])) = [.scriptB] := by
    decide
  obtain ⟨hlist, -, hcounters, -⟩ := (hscan _).1 r hr
  rw [hbegan] at hlist hcounters
  have hread := Disk.read_mixed .scriptB (by decide)
  refine ⟨Analyzer.files_mixed, rfl, r, hr, ?_, ?_⟩
  · rw [hlist, List.map_singleton, processFile_congr _ _ _ hread]
    decide +kernel
  · rw [hcounters, List.map_singleton, processFile_congr _ _ _ hread]
    decide +kernel

end CodeAtlas
