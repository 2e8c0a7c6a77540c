import CodeAtlas.Glob.Reader
import CodeAtlas.Proofs.Keyed
import CodeAtlas.Proofs.Scan.Work
import CodeAtlas.Report.Flat
import Mathlib

/-!
The counters of a scan.  They are folded over the outcomes as these come in, while the files of the
report are sorted, grouped by language, put on pages and flattened into rows afterwards.  Each
counter is what one finds by going over the files of the report (`ScanReport.Agrees`), in whatever
order the outcomes were recorded.

    outcomes  --record-->  counters                                   (Counters.Counts)
    outcomes  --sort---->  files  --group-->  languages, pages        (ScanReport.languages_eq)
                                  --flatten-> rows                    (FlatRecord.length_ofFile)

Three of the counters lean on the outcomes being settled: which failures are unsupported files,
which files the grammar accepted, and that a file without a language has no entities to lose in the
rows.
-/

namespace CodeAtlas

/-! ## Tallies -/

namespace Tally

/-- A tally counts the occurrences of each text of a list. -/
structure Counts (ls : List String) (t : Tally) : Prop where
  ordered : t.Pairwise (fun a b => a.1 < b.1)
  entries : ∀ k n, (k, n) ∈ t ↔ k ∈ ls ∧ n = ls.count k
  total : (t.map (·.2)).sum = ls.length

theorem sum_add (key : String) (t : Tally) :
    ((add key t).map (·.2)).sum = (t.map (·.2)).sum + 1 := by
  fun_induction add key t with
  | case1 => rfl
  | case2 k n rest _ =>
    simp only [List.map_cons, List.sum_cons]
    omega
  | case3 k n rest _ _ =>
    simp only [List.map_cons, List.sum_cons]
    omega
  | case4 k n rest _ _ ih =>
    simp only [List.map_cons, List.sum_cons, ih]
    omega

theorem mem_add_of_ne {key : String} {e : String × Nat} (h : e.1 ≠ key) (t : Tally) :
    e ∈ add key t ↔ e ∈ t := by
  have hnew : ∀ n, e ≠ (key, n) := by
    rintro n rfl
    exact h rfl
  fun_induction add key t with
  | case1 => simp [hnew]
  | case2 k n rest hkey =>
    obtain rfl := beq_iff_eq.mp hkey
    simp [hnew]
  | case3 k n rest _ _ => simp [hnew]
  | case4 k n rest _ _ ih => simp [ih]

theorem ordered_add (key : String) {t : Tally} (h : t.Pairwise (fun a b => a.1 < b.1)) :
    (add key t).Pairwise (fun a b => a.1 < b.1) := by
  fun_induction add key t with
  | case1 => exact List.pairwise_singleton _ _
  | case2 k n rest _ => exact List.pairwise_cons.mpr (List.pairwise_cons.mp h)
  | case3 k n rest _ hlt =>
    refine List.pairwise_cons.mpr ⟨?_, h⟩
    intro e he
    rcases List.mem_cons.mp he with rfl | he
    · exact hlt
    · exact lt_trans hlt ((List.pairwise_cons.mp h).1 e he)
  | case4 k n rest hne hlt ih =>
    obtain ⟨hhead, hrest⟩ := List.pairwise_cons.mp h
    refine List.pairwise_cons.mpr ⟨?_, ih hrest⟩
    intro e he
    by_cases hkey : e.1 = key
    · have hle : k ≤ key := not_lt.mp hlt
      rw [hkey]
      exact lt_of_le_of_ne hle fun heq => hne (beq_iff_eq.mpr heq.symm)
    · exact hhead e ((mem_add_of_ne hkey rest).mp he)

theorem mem_add_self (key : String) (n : Nat) {t : Tally} (h : t.Pairwise (fun a b => a.1 < b.1)) :
    (key, n) ∈ add key t ↔
      (∃ m, (key, m) ∈ t ∧ n = m + 1) ∨ ((∀ m, (key, m) ∉ t) ∧ n = 1) := by
  fun_induction add key t with
  | case1 => simp
  | case2 k m rest hkey =>
    -- the order of the keys rules out a second entry behind this one
    obtain rfl := beq_iff_eq.mp hkey
    have hrest : ∀ m, (key, m) ∉ rest :=
      fun m hm => lt_irrefl key ((List.pairwise_cons.mp h).1 _ hm)
    grind
  | case3 k m rest hne hlt =>
    have hrest : ∀ m, (key, m) ∉ rest :=
      fun m hm => lt_asymm hlt ((List.pairwise_cons.mp h).1 _ hm)
    grind
  | case4 k m rest hne hlt ih =>
    have hother : ∀ m', (key, m') ≠ (k, m) := by
      rintro m' heq
      exact hne (beq_iff_eq.mpr (congrArg Prod.fst heq))
    simp only [List.mem_cons, hother, false_or, ih (List.pairwise_cons.mp h).2]

theorem counts_nil : Counts [] [] :=
  ⟨.nil, by simp, rfl⟩

theorem Counts.add {ls : List String} {t : Tally} (h : Counts ls t) (key : String) :
    Counts (ls ++ [key]) (add key t) where
  ordered := ordered_add key h.ordered
  entries k n := by
    by_cases hk : k = key
    · subst hk
      simp only [mem_add_self k n h.ordered, h.entries]
      by_cases hmem : k ∈ ls
      · simp [hmem]
      · simp [hmem, List.count_eq_zero_of_not_mem hmem]
    · rw [mem_add_of_ne hk, h.entries]
      simp [hk, List.count_append, Ne.symm hk]
  total := by
    rw [sum_add, h.total]
    simp

theorem Counts.of_perm {ls ms : List String} {t : Tally} (h : Counts ls t) (hperm : ls.Perm ms) :
    Counts ms t where
  ordered := h.ordered
  entries k n := by rw [h.entries, hperm.mem_iff, hperm.count_eq]
  total := h.total.trans hperm.length_eq

end Tally

/-! ## The fold over the outcomes -/

namespace Counters

/-- Counters as one would count them, outcome by outcome. -/
structure Counts (outcomes : List FileOutcome) (c : Counters) : Prop where
  scanned : c.scanned = outcomes.length
  parsed : c.parsed = outcomes.countP (·.parsed)
  failed : c.failed = outcomes.countP (fun o => o.report.isFailed && !isUnsupported o.report)
  unsupported : c.unsupported =
    outcomes.countP (fun o => o.report.isFailed && isUnsupported o.report)
  tests : c.tests = outcomes.countP (·.report.isTest)
  entities : c.entities = (outcomes.map (·.report.entityCount)).sum
  perLanguage : c.perLanguage.Counts (outcomes.filterMap (·.report.language))

theorem counts_zero : Counts [] .zero :=
  ⟨rfl, rfl, rfl, rfl, rfl, rfl, Tally.counts_nil⟩

theorem countP_snoc {α : Type} (p : α → Bool) (l : List α) (a : α) :
    (l ++ [a]).countP p = l.countP p + one (p a) := by
  simp [List.countP_append, List.countP_singleton, one]

theorem countP_eq_add {α : Type} {p q r : α → Bool} {l : List α}
    (h : ∀ a ∈ l, one (p a) = one (q a) + one (r a)) : l.countP p = l.countP q + l.countP r := by
  induction l with
  | nil => rfl
  | cons a rest ih =>
    have hhead := h a List.mem_cons_self
    have hrest := ih fun b hb => h b (List.mem_cons_of_mem a hb)
    simp only [one] at hhead
    simp only [List.countP_cons]
    omega

theorem Counts.record {outcomes : List FileOutcome} {c : Counters} (h : Counts outcomes c)
    (o : FileOutcome) : Counts (outcomes ++ [o]) (c.record o.report o.parsed) where
  scanned := by simp [Counters.record, h.scanned]
  parsed := by rw [countP_snoc, ← h.parsed]; rfl
  failed := by rw [countP_snoc, ← h.failed]; rfl
  unsupported := by rw [countP_snoc, ← h.unsupported]; rfl
  tests := by rw [countP_snoc, ← h.tests]; rfl
  entities := by simp [Counters.record, h.entities]
  perLanguage := by
    rw [List.filterMap_append]
    cases hlanguage : o.report.language with
    | none => simpa [Counters.record, hlanguage] using h.perLanguage
    | some l => simpa [Counters.record, hlanguage] using h.perLanguage.add l

theorem Counts.foldl {seen : List FileOutcome} {c : Counters} (h : Counts seen c)
    (outcomes : List FileOutcome) :
    Counts (seen ++ outcomes) (outcomes.foldl (fun c o => c.record o.report o.parsed) c) := by
  induction outcomes generalizing seen c with
  | nil => simpa using h
  | cons o rest ih =>
    have := ih (h.record o)
    rwa [List.append_assoc] at this

theorem counts_ofOutcomes (outcomes : List FileOutcome) : Counts outcomes (ofOutcomes outcomes) :=
  counts_zero.foldl outcomes

end Counters

/-! ## Rows -/

namespace FlatRecord

mutual

theorem length_ofEntity (file language : String) (outer : Option String) (e : Entity) :
    (ofEntity file language outer e).length = e.preorder.length := by
  cases e with
  | entity f cs =>
    simp only [ofEntity, Entity.preorder, List.length_cons,
      length_ofEntities file language (some (qualify outer f.name)) cs]

theorem length_ofEntities (file language : String) (outer : Option String) (es : List Entity) :
    (ofEntities file language outer es).length = (Entity.preorderAll es).length := by
  cases es with
  | nil => rfl
  | cons e es =>
    simp only [ofEntities, Entity.preorderAll, List.length_append,
      length_ofEntity file language outer e, length_ofEntities file language outer es]

end

/-- A file has a row for each of its entities, if it has none without a language. -/
theorem length_ofFile {r : FileReport} (h : r.language = none → r.entities = []) :
    (ofFile r).length = r.entityCount := by
  unfold FileReport.entityCount FileReport.walk ofFile
  rw [Entity.walk_eq_preorder]
  split
  · exact length_ofEntities _ _ none r.entities
  · rename_i hlanguage
    rw [h hlanguage]
    rfl

end FlatRecord

/-! ## Groups -/

theorem sorted_eraseDups {l : List String} (h : l.Pairwise (· ≤ ·)) :
    l.eraseDups.Pairwise (· < ·) := by
  match l with
  | [] => simp
  | k :: rest =>
    obtain ⟨hhead, hrest⟩ := List.pairwise_cons.mp h
    rw [List.eraseDups_cons]
    refine List.pairwise_cons.mpr ⟨?_, sorted_eraseDups (hrest.filter _)⟩
    intro k' hk'
    obtain ⟨hmem, hne⟩ := List.mem_filter.mp (List.mem_eraseDups.mp hk')
    refine lt_of_le_of_ne (hhead k' hmem) ?_
    rintro rfl
    simp at hne
termination_by l.length
decreasing_by exact Nat.lt_succ_of_le (List.length_filter_le _ _)

namespace ScanReport

theorem length_filesOf (r : ScanReport) (l : String) :
    (r.filesOf l).length = (r.files.filterMap (·.language)).count l := by
  rw [List.count_filterMap, List.countP_eq_length_filter]
  rfl

theorem languages_eq {r : ScanReport} {t : Tally} (h : t.Counts (r.files.filterMap (·.language))) :
    t = r.byLanguage.map (fun g => (g.1, g.2.length)) := by
  have hsorted : r.languages.Pairwise (· < ·) := sorted_eraseDups (sort_keys_le id _)
  unfold byLanguage
  rw [List.map_map]
  refine eq_of_sorted_keys Prod.fst h.ordered (List.pairwise_map.mpr hsorted) ?_
  rintro ⟨k, n⟩
  have hmem : k ∈ r.languages ↔ k ∈ r.files.filterMap (·.language) := by
    unfold languages
    rw [List.mem_eraseDups, List.mem_mergeSort]
  simp only [h.entries, List.mem_map, Function.comp_apply, Prod.mk.injEq, length_filesOf]
  constructor
  · rintro ⟨hk, rfl⟩
    exact ⟨k, hmem.mpr hk, rfl, rfl⟩
  · rintro ⟨k, hk, rfl, rfl⟩
    exact ⟨hmem.mp hk, rfl⟩

end ScanReport

/-! ## Agreement -/

/-- The counters of a report are those of its files, and the groups, pages and rows that are made of
the files have the same numbers. -/
structure ScanReport.Agrees (r : ScanReport) : Prop where
  scanned : r.counters.scanned = r.files.length
  failed : r.counters.failed + r.counters.unsupported = r.failedFiles.length
  unsupported : r.counters.unsupported = r.files.countP (·.language.isNone)
  /-- The grammar accepted the files that are done and those whose query was at fault. -/
  parsed : r.counters.parsed = r.files.countP (·.state == .done) +
    r.files.countP (fun f => f.isFailed && f.errors.any (·.kind == .query))
  languages : r.counters.perLanguage = r.byLanguage.map (fun g => (g.1, g.2.length))
  /-- The index lists the groups with their sizes, and links to the pages there are. -/
  index : ∃ before after, Outline.indexPage r = Outline.page (before ++
    Outline.titled "## Languages" (r.byLanguage.map fun g =>
      "- [" ++ g.1 ++ "](" ++ g.1 ++ ".md): " ++ toString g.2.length ++ " files") ++ after)
  pages : r.counters.perLanguage.map (·.1) = (Outline.languagePages r).map (·.1)
  supported : (r.counters.perLanguage.map (·.2)).sum + r.counters.unsupported = r.counters.scanned
  tests : r.counters.tests = r.files.countP (·.isTest)
  entities : r.counters.entities = (r.files.map (·.entityCount)).sum
  rows : r.flatten.length = r.counters.entities

namespace FileOutcome

theorem Settled.isUnsupported_eq {o : FileOutcome} (h : o.Settled) :
    Counters.isUnsupported o.report = o.report.language.isNone := by
  have := h.unsupported
  simp only [Counters.isUnsupported]
  rw [Bool.eq_iff_iff]
  simpa using this

theorem Settled.of_no_language {o : FileOutcome} (h : o.Settled)
    (hnone : o.report.language = none) :
    o.report.isFailed = true ∧ o.report.entities = [] := by
  rcases h.ended with ⟨_, _, hsome⟩ | ⟨hfailed, _, hentities⟩
  · rw [hnone] at hsome
    cases hsome
  · exact ⟨by simp [FileReport.isFailed, hfailed], hentities⟩

/-- The flag of an outcome is set in one of two ways that exclude each other. -/
theorem Settled.one_parsed {o : FileOutcome} (h : o.Settled) :
    Counters.one o.parsed = Counters.one (o.report.state == .done) +
      Counters.one (o.report.isFailed && o.report.errors.any (·.kind == .query)) := by
  have hparsed := h.parsed
  rcases h.ended with ⟨hdone, herrors, _⟩ | ⟨hfailed, _, _⟩
  · simp [Counters.one, FileReport.isFailed, hdone, hparsed]
  · simp [Counters.one, FileReport.isFailed, hfailed, hparsed]

end FileOutcome

namespace ScanReport

/-- A report on outcomes: its files are theirs in some order, and its counters count them. -/
structure ReportsOn (r : ScanReport) (outcomes : List FileOutcome) : Prop where
  files : r.files.Perm (outcomes.map (·.report))
  counters : r.counters.Counts outcomes

theorem reportsOn_ofOutcomes (root : String) (outcomes : List FileOutcome) (cancelled : Bool)
    (elapsedMs : Nat) : (ofOutcomes root outcomes cancelled elapsedMs).ReportsOn outcomes :=
  ⟨List.mergeSort_perm _ _, Counters.counts_ofOutcomes outcomes⟩

section

variable {r : ScanReport} {outcomes : List FileOutcome}

theorem ReportsOn.countP_files (hr : r.ReportsOn outcomes) (p : FileReport → Bool) :
    r.files.countP p = outcomes.countP (fun o => p o.report) := by
  rw [hr.files.countP_eq, List.countP_map]
  rfl

theorem ReportsOn.tally (hr : r.ReportsOn outcomes) :
    r.counters.perLanguage.Counts (r.files.filterMap (·.language)) := by
  refine hr.counters.perLanguage.of_perm ?_
  have := (hr.files.filterMap (·.language)).symm
  rwa [List.filterMap_map] at this

theorem ReportsOn.unsupported_eq (hr : r.ReportsOn outcomes) (h : ∀ o ∈ outcomes, o.Settled) :
    r.counters.unsupported = r.files.countP (·.language.isNone) := by
  rw [hr.counters.unsupported, hr.countP_files]
  refine List.countP_congr fun o ho => ?_
  rw [(h o ho).isUnsupported_eq, Bool.and_eq_true, and_iff_right_iff_imp]
  intro hnone
  exact ((h o ho).of_no_language (Option.isNone_iff_eq_none.mp hnone)).1

theorem ReportsOn.failed_eq (hr : r.ReportsOn outcomes) :
    r.counters.failed + r.counters.unsupported = r.failedFiles.length := by
  rw [hr.counters.failed, hr.counters.unsupported, failedFiles, ← List.countP_eq_length_filter,
    hr.countP_files]
  symm
  apply Counters.countP_eq_add
  intro o _
  cases o.report.isFailed <;> cases Counters.isUnsupported o.report <;> rfl

theorem ReportsOn.parsed_eq (hr : r.ReportsOn outcomes) (h : ∀ o ∈ outcomes, o.Settled) :
    r.counters.parsed = r.files.countP (·.state == .done) +
      r.files.countP (fun f => f.isFailed && f.errors.any (·.kind == .query)) := by
  rw [hr.counters.parsed, hr.countP_files, hr.countP_files]
  exact Counters.countP_eq_add fun o ho => (h o ho).one_parsed

theorem ReportsOn.entities_eq (hr : r.ReportsOn outcomes) :
    r.counters.entities = (r.files.map (·.entityCount)).sum := by
  rw [hr.counters.entities, (hr.files.map _).sum_nat, List.map_map]
  rfl

theorem ReportsOn.length_flatten (hr : r.ReportsOn outcomes) (h : ∀ o ∈ outcomes, o.Settled) :
    r.flatten.length = r.counters.entities := by
  rw [hr.entities_eq, flatten, List.length_flatMap]
  congr 1
  refine List.map_congr_left fun f hf => ?_
  obtain ⟨o, ho, rfl⟩ := List.mem_map.mp (hr.files.mem_iff.mp hf)
  exact FlatRecord.length_ofFile fun hnone => ((h o ho).of_no_language hnone).2

/-- A report on settled outcomes agrees with itself. -/
theorem ReportsOn.agrees (hr : r.ReportsOn outcomes) (h : ∀ o ∈ outcomes, o.Settled) :
    r.Agrees := by
  have hscanned : r.counters.scanned = r.files.length := by
    rw [hr.counters.scanned, hr.files.length_eq, List.length_map]
  have hlanguages := languages_eq hr.tally
  refine ⟨hscanned, hr.failed_eq, hr.unsupported_eq h, hr.parsed_eq h, hlanguages, ?_, ?_, ?_, ?_,
    hr.entities_eq, hr.length_flatten h⟩
  · unfold Outline.indexPage
    rw [hlanguages, List.map_map]
    exact ⟨_, _, rfl⟩
  · rw [hlanguages, Outline.languagePages, List.map_map, List.map_map]
    rfl
  · rw [hr.tally.total, hr.unsupported_eq h, hscanned, List.length_filterMap_eq_countP]
    rw [List.length_eq_countP_add_countP (fun f => f.language.isSome)]
    refine congrArg _ (List.countP_congr fun f _ => ?_)
    simp
  · rw [hr.counters.tests, hr.countP_files]

end

end ScanReport

/-! ## Scans -/

theorem settled_processFiles [QueryEngine] (parser : Parser) (profiles : Registry)
    (read : String → Except OsError (List UInt8)) (files : List FoundFile) (cache : QueryCache) :
    ∀ o ∈ (processFiles .query parser profiles read files cache).1, o.Settled := by
  induction files generalizing cache with
  | nil => simp [processFiles]
  | cons f fs ih =>
    intro o ho
    unfold processFiles at ho
    rcases List.mem_cons.mp ho with rfl | ho
    · exact (ends_processFile parser profiles read f cache).settled
    · exact ih _ o ho

theorem Analyzer.scanBegun_of_files [QueryEngine] [Glob.Engine] {a : Analyzer} {d : Disk}
    {root : String} {files : List FoundFile} (h : a.files d root = .ok files) (parser : Parser)
    (begun : FoundFile → Bool) (cancelled : Bool) :
    a.scanBegun parser d root begun cancelled =
      .ok (.ofOutcomes root (processFiles a.structurer parser a.profiles d.read
          (files.filter begun) a.cache).1 cancelled 0,
        { a with cache := (processFiles a.structurer parser a.profiles d.read
          (files.filter begun) a.cache).2 }) := by
  unfold scanBegun
  rw [h]
  rfl

/-- **The counters of a scan are those of its files.**  Whatever the directory, the failures and the
files that a cancelled scan had begun, a scan whose root can be listed gives a report that agrees
with itself, if files are structured by queries.  The order of the outcomes and the state of the
cache for each of them play no part: any outcomes, recorded one after another, make a report that
agrees with itself. -/
theorem scan_counters_agree [QueryEngine] [Glob.Engine] (a : Analyzer)
    (hstructurer : a.structurer = .query) (parser : Parser) (d : Disk) (root : String)
    (begun : FoundFile → Bool) (cancelled : Bool) {files : List FoundFile}
    (hfiles : a.files d root = .ok files) :
    (∃ r a', a.scanBegun parser d root begun cancelled = .ok (r, a') ∧ r.Agrees) ∧
    ∀ (jobs : List (FoundFile × QueryCache)) (elapsedMs : Nat),
      (ScanReport.ofOutcomes root
        (jobs.map fun j => (processFile a.structurer parser a.profiles d.read j.1 j.2).1) cancelled
        elapsedMs).Agrees := by
  constructor
  · refine ⟨_, _, Analyzer.scanBegun_of_files hfiles parser begun cancelled, ?_⟩
    rw [hstructurer]
    exact (ScanReport.reportsOn_ofOutcomes _ _ _ _).agrees
      (settled_processFiles parser a.profiles d.read _ a.cache)
  · intro jobs elapsedMs
    refine (ScanReport.reportsOn_ofOutcomes _ _ _ _).agrees ?_
    intro o ho
    obtain ⟨j, -, rfl⟩ := List.mem_map.mp ho
    rw [hstructurer]
    exact (ends_processFile parser a.profiles d.read j.1 j.2).settled

/-- A language whose structure query finds functions with their names. -/
def Profile.namedFunctions : Profile :=
  { (default : Profile) with
    id := "python"
    extensions := ["py"]
    defaultGrammar := .ofHandle .python
    queries := ⟨fun name => ⟨name, "python", 1,
      "(function_definition name: (identifier) @function.name) @function"⟩⟩
    taxonomy := ⟨[.functions]⟩ }

/-- An analyzer for this language, with the default options. -/
def Analyzer.pythonOnly : Analyzer where
  profiles := Registry.empty.register .namedFunctions
  cache := .empty
  structurer := .query
  config := {}
  ignore := { length := 0, accepts := fun _ => false }
  valid := rfl

def Parser.oneFunction : Parser := fun _ bytes =>
  let info (kind : String) (start stop : Nat) (field : Option String) : NodeInfo :=
    { (default : NodeInfo) with
      kind := kind, startByte := start, endByte := stop, named := true, field := field }
  if bytes = Text.Utf8.encode "def f(): 0" then
    .ok (.node (info "module" 0 10 none) [.node (info "function_definition" 0 10 none)
      [.node (info "identifier" 4 5 "name") []]])
  else .error .noTree

/-- A file with a function, one without a language, one that cannot be parsed and one that is
hidden. -/
def Disk.mixed : Disk where
  top := .directory [("b.py", .file (Text.Utf8.encode "def f(): 0")), ("a", .file []),
    (".c.py", .file []), ("d.py", .file [])]
  working := []

namespace FoundFile

def letterA : FoundFile := ⟨"./a", "a"⟩

def scriptB : FoundFile := ⟨"./b.py", "b.py"⟩

def scriptD : FoundFile := ⟨"./d.py", "d.py"⟩

end FoundFile

theorem Analyzer.files_mixed :
    Analyzer.pythonOnly.files .mixed "." = .ok [.letterA, .scriptB, .scriptD] := by
  show Selection.collect .mixed {} (fun _ => false) "." = _
  cbv

def Disk.mixedBytes (path : String) : Except OsError (List UInt8) :=
  if path = "./b.py" then .ok (Text.Utf8.encode "def f(): 0") else .ok []

theorem Disk.read_mixed : ∀ f ∈ [FoundFile.letterA, .scriptB, .scriptD],
    Disk.mixed.read f.path = mixedBytes f.path := by
  simp only [List.forall_mem_cons, List.not_mem_nil, false_implies, implies_true, and_true]
  exact ⟨by cbv, by cbv, by cbv⟩

theorem scan_counters_agree_mixed :
    Analyzer.pythonOnly.files .mixed "." = .ok [.letterA, .scriptB, .scriptD] ∧
    ∃ r a', Analyzer.pythonOnly.scanBegun .oneFunction .mixed "." (fun _ => true) false =
        .ok (r, a') ∧ r.Agrees ∧ r.counters = ⟨3, 1, 1, 1, 0, 1, [("python", 2)]⟩ := by
  have hfiles := Analyzer.files_mixed
  obtain ⟨r, a', hscan, hagrees⟩ := (scan_counters_agree Analyzer.pythonOnly rfl .oneFunction .mixed
    "." (fun _ => true) false hfiles).1
  refine ⟨hfiles, r, a', hscan, hagrees, ?_⟩
  have hreport := Except.ok.inj (hscan.symm.trans (Analyzer.scanBegun_of_files hfiles ..))
  rw [(Prod.mk.inj hreport).1]
  rw [List.filter_true, processFiles_congr _ _ _ Disk.read_mixed]
  decide +kernel

end CodeAtlas
