import CodeAtlas.Analyzer
import CodeAtlas.Proofs.Disk.Writing
import CodeAtlas.Proofs.Json.RoundTrip
import CodeAtlas.Proofs.Profile.Loading
import Mathlib

/-!
A report written and read back.  For every record of a report there are two facts: its JSON has only
numbers that the reader takes (`whole_toJson`), and the typed reading of its JSON is the record
(`ofJson?_toJson`), fields that were left out included.  The text in between is dealt with by
`Json.read_pretty` and the file by `Disk.readText_of_writeText`:

    report  --toJson-->  value  --pretty-->  text  --encode-->  bytes  --write-->  disk
    report  <--ofJson?-  value  <--parse?--  text  <-decode?--  bytes  <--read---  disk

`Representable` says what the fields of a report hold in any case: numbers of 64 bits, and a tally
with each key once, in order.  The one condition beside it is that the document nests fewer levels
than the reader takes (`ScanReport.written_report_reads_back`).
-/

namespace CodeAtlas

open Json (Whole)
open Json.Decode

/-! ## What a report may hold -/

/-- Every number has 64 bits. -/
structure Location.Representable (l : Location) : Prop where
  offset : l.offset < UInt64.size
  line : l.line < UInt64.size
  column : l.column < UInt64.size

/-- Every number has 64 bits. -/
structure Span.Representable (s : Span) : Prop where
  startByte : s.startByte < UInt64.size
  endByte : s.endByte < UInt64.size
  startLine : s.startLine < UInt64.size
  startCol : s.startCol < UInt64.size
  endLine : s.endLine < UInt64.size
  endCol : s.endCol < UInt64.size

/-- The numbers in the spans of an entity and of everything below it have 64 bits. -/
inductive Entity.Representable : Entity → Prop
  | entity {f : Facts} {cs : List Entity} (span : f.span.Representable)
      (children : ∀ c ∈ cs, Representable c) : Representable (.entity f cs)

/-- The numbers in the spans of the entities and in the places of the errors have 64 bits. -/
structure FileReport.Representable (r : FileReport) : Prop where
  entities : ∀ e ∈ r.entities, e.Representable
  errors : ∀ e ∈ r.errors, ∀ l ∈ e.location, l.Representable

/-- Every count has 64 bits, and the tally has each key once, in order. -/
structure Counters.Representable (c : Counters) : Prop where
  scanned : c.scanned < UInt64.size
  parsed : c.parsed < UInt64.size
  failed : c.failed < UInt64.size
  unsupported : c.unsupported < UInt64.size
  tests : c.tests < UInt64.size
  entities : c.entities < UInt64.size
  counts : ∀ e ∈ c.perLanguage, e.2 < UInt64.size
  ordered : c.perLanguage.Pairwise (fun a b => a.1 < b.1)

/-- Every number of the report has 64 bits, and its tally is in order. -/
structure ScanReport.Representable (r : ScanReport) : Prop where
  files : ∀ f ∈ r.files, f.Representable
  counters : r.counters.Representable
  elapsedMs : r.elapsedMs < UInt64.size

/-! ## Places -/

namespace Location

theorem whole_toJson {l : Location} (h : l.Representable) : Whole l.toJson := by
  exact .ofFields ⟨.natural h.offset, .natural h.line, .natural h.column⟩

theorem ofJson?_toJson {l : Location} (h : l.Representable) : ofJson? l.toJson = some l := by
  have hgiven : given [("offset", .refused), ("line", .refused), ("column", .refused)] l.toJson =
      some [some (.natural l.offset), some (.natural l.line), some (.natural l.column)] := rfl
  simp [ofJson?, hgiven, required, word64_natural, h.offset, h.line, h.column]

end Location

namespace Span

theorem whole_toJson {s : Span} (h : s.Representable) : Whole s.toJson := by
  exact .ofFields ⟨.natural h.startByte, .natural h.endByte, .natural h.startLine,
    .natural h.startCol, .natural h.endLine, .natural h.endCol⟩

theorem ofJson?_toJson {s : Span} (h : s.Representable) : ofJson? s.toJson = some s := by
  have hgiven : given [
      ("start_byte", .refused), ("end_byte", .refused), ("start_line", .refused),
      ("start_col", .refused), ("end_line", .refused), ("end_col", .refused)] s.toJson =
      some [some (.natural s.startByte), some (.natural s.endByte), some (.natural s.startLine),
        some (.natural s.startCol), some (.natural s.endLine), some (.natural s.endCol)] := rfl
  simp [ofJson?, hgiven, required, word64_natural, h.startByte, h.endByte, h.startLine, h.startCol,
    h.endLine, h.endCol]

end Span

/-! ## Entities -/

theorem EntityId.whole_toJson (id : EntityId) : Whole id.toJson :=
  .natural (Nat.lt_trans id.number.toNat_lt (by decide))

theorem EntityId.ofJson?_toJson (id : EntityId) : ofJson? id.toJson = some id := by
  have hsize : id.number.toNat < UInt32.size := id.number.toNat_lt
  simp [ofJson?, toJson, word32, naturalBelow, hsize]

namespace Entity

theorem toJsonAll_eq_map (es : List Entity) : toJsonAll es = es.map toJson := by
  induction es with
  | nil => rw [toJsonAll, List.map_nil]
  | cons e es ih => rw [toJsonAll, List.map_cons, ih]

def writtenChildren (cs : List Entity) : Option Json :=
  if cs.isEmpty then none else some (.array (cs.map toJson))

def row (f : Facts) (cs : List Entity) : List Written :=
  [⟨"id", .refused, some f.id.toJson⟩, ⟨"kind", .refused, some (.text f.kind.name)⟩,
    ⟨"name", .refused, some (.text f.name)⟩,
    ⟨"declared_type", .default, f.declaredType.map .text⟩,
    ⟨"return_type", .default, f.returnType.map .text⟩,
    ⟨"reference", .default, f.reference.map .text⟩,
    ⟨"parent", .default, f.parent.map EntityId.toJson⟩,
    ⟨"span", .refused, some f.span.toJson⟩,
    ⟨"children", .default, writtenChildren cs⟩]

theorem toJson_eq_row (f : Facts) (cs : List Entity) :
    toJson (.entity f cs) = .object (writtenFields (row f cs)) := by
  rw [toJson, toJsonAll_eq_map]
  cases cs with
  | nil => simp [Facts.toFields, writtenFields, row, writtenChildren, Json.optional]
  | cons c cs => simp [Facts.toFields, writtenFields, row, writtenChildren, Json.optional]

theorem given_toJson (f : Facts) (cs : List Entity) :
    given Facts.shape (toJson (.entity f cs)) = some ((row f cs).map (·.value)) := by
  rw [toJson_eq_row]
  exact given_written (row f cs) (by simp [row]) (by simp [row])

theorem whole_toJson {e : Entity} (h : e.Representable) : Whole e.toJson := by
  induction h with
  | @entity f cs span _ ih =>
    rw [toJson_eq_row]
    refine whole_written ⟨whole_of_some f.id.whole_toJson, whole_of_some (.text _),
      whole_of_some (.text _), whole_of_map .text _, whole_of_map .text _, whole_of_map .text _,
      whole_of_map EntityId.whole_toJson _, whole_of_some (Span.whole_toJson span), ?_⟩
    intro v hv
    rw [writtenChildren] at hv
    split at hv
    · cases hv
    · cases hv
      refine .array fun w hw => ?_
      obtain ⟨c, hc, rfl⟩ := List.mem_map.mp hw
      exact ih c hc

theorem depth_child {f : Facts} {cs : List Entity} {c : Entity} (h : c ∈ cs) :
    c.toJson.depth + 2 ≤ (toJson (.entity f cs)).depth := by
  have hitem : c.toJson.depth ≤ Json.depthOfItems (toJsonAll cs) := by
    rw [toJsonAll_eq_map]
    exact Json.depth_le_of_mem (List.mem_map_of_mem h)
  have hne : cs.isEmpty = false := by
    cases cs with
    | nil => cases h
    | cons _ _ => rfl
  have hfield : (Json.array (toJsonAll cs)).depth ≤ Json.depthOfFields
      (f.toFields ++ [("children", .array (toJsonAll cs))]) :=
    Json.depth_le_of_field (f := ("children", .array (toJsonAll cs))) (by simp)
  rw [Json.depth] at hfield
  rw [toJson, hne, Json.depth, if_neg Bool.false_ne_true]
  omega

/-- Reading an entity takes one unit of fuel for each level of entities, which is two levels of the
document. -/
theorem ofJsonWithin_toJson {e : Entity} (h : e.Representable) {fuel : Nat}
    (hfuel : e.toJson.depth ≤ fuel) : ofJsonWithin fuel e.toJson = some e := by
  induction h generalizing fuel with
  | @entity f cs span _ ih =>
    have hpos : 0 < fuel := by
      rw [toJson, Json.depth] at hfuel
      omega
    obtain ⟨fuel, rfl⟩ : ∃ n, fuel = n + 1 := ⟨fuel - 1, by omega⟩
    have hkids : orElse (list (ofJsonWithin fuel)) [] (writtenChildren cs) = some cs := by
      cases cs with
      | nil => rfl
      | cons c cs =>
        refine list_array fun kid hkid => ih kid hkid ?_
        have := depth_child (f := f) hkid
        omega
    have hparent : perhaps EntityId.ofJson? (f.parent.map EntityId.toJson) = some f.parent :=
      perhaps_map (fun _ => Json.noConfusion) fun id _ => EntityId.ofJson?_toJson id
    rw [ofJsonWithin, given_toJson]
    simp [row, required, EntityId.ofJson?_toJson, choice, Kind.ofName?_name, text,
      Span.ofJson?_toJson span, perhaps_text, hparent, hkids]

end Entity

/-! ## Files -/

namespace FileError

def row (e : FileError) : List Written :=
  [⟨"kind", .refused, some (.text e.kind.name)⟩, ⟨"message", .refused, some (.text e.message)⟩,
    ⟨"location", .default, e.location.map Location.toJson⟩]

theorem toJson_eq_row (e : FileError) : e.toJson = .object (writtenFields e.row) := by
  simp [toJson, writtenFields, row, Json.optional]

theorem whole_toJson {e : FileError} (h : ∀ l ∈ e.location, l.Representable) : Whole e.toJson := by
  rw [toJson_eq_row]
  refine whole_written ⟨whole_of_some (.text _), whole_of_some (.text _), fun v hv => ?_⟩
  obtain ⟨l, hl, rfl⟩ := Option.map_eq_some_iff.mp hv
  exact Location.whole_toJson (h l hl)

theorem ofJson?_toJson {e : FileError} (h : ∀ l ∈ e.location, l.Representable) :
    ofJson? e.toJson = some e := by
  have hgiven : given [("kind", .refused), ("message", .refused), ("location", .default)] e.toJson =
      some (e.row.map (·.value)) := by
    rw [toJson_eq_row]
    exact given_written e.row (by simp [row]) (by simp [row])
  have hlocation : perhaps Location.ofJson? (e.location.map Location.toJson) = some e.location :=
    perhaps_map (fun _ => Json.noConfusion) fun l hl => Location.ofJson?_toJson (h l hl)
  simp [ofJson?, hgiven, row, required, choice, FailureKind.ofName?_name, text, hlocation]

end FileError

namespace FileReport

theorem whole_toJson {r : FileReport} (h : r.Representable) : Whole r.toJson := by
  have hlanguage : Whole (Json.ofText? r.language) := by
    cases r.language with
    | none => exact .null
    | some l => exact .text l
  refine .ofFields
    ⟨.text _, hlanguage, .bool _, .text _, .array fun v hv => ?_, .array fun v hv => ?_⟩
  · rw [Entity.toJsonAll_eq_map] at hv
    obtain ⟨e, he, rfl⟩ := List.mem_map.mp hv
    exact Entity.whole_toJson (h.entities e he)
  · obtain ⟨e, he, rfl⟩ := List.mem_map.mp hv
    exact FileError.whole_toJson (h.errors e he)

theorem depth_entity {r : FileReport} {e : Entity} (h : e ∈ r.entities) :
    e.toJson.depth ≤ r.toJson.depth := by
  have hitem : e.toJson.depth ≤ Json.depthOfItems (Entity.toJsonAll r.entities) := by
    rw [Entity.toJsonAll_eq_map]
    exact Json.depth_le_of_mem (List.mem_map_of_mem h)
  simp only [toJson, Json.depth, Json.depthOfFields]
  omega

theorem ofJson?_toJson {r : FileReport} (h : r.Representable)
    (hdepth : r.toJson.depth ≤ Json.nestingLimit) : ofJson? r.toJson = some r := by
  have hgiven : given [
      ("path", .refused), ("language", .asNull), ("is_test", .default), ("state", .refused),
      ("entities", .refused), ("errors", .refused)] r.toJson =
      some [some (.text r.path), some (Json.ofText? r.language), some (.bool r.isTest),
        some (.text r.state.name), some (.array (Entity.toJsonAll r.entities)),
        some (.array (r.errors.map FileError.toJson))] := rfl
  have hlanguage : perhaps text (some (Json.ofText? r.language)) = some r.language := by
    cases r.language <;> rfl
  have hentities : list Entity.ofJson? (.array (Entity.toJsonAll r.entities)) = some r.entities := by
    rw [Entity.toJsonAll_eq_map]
    refine list_array fun e he => Entity.ofJsonWithin_toJson (h.entities e he) ?_
    exact (depth_entity he).trans hdepth
  have herrors : list FileError.ofJson? (.array (r.errors.map FileError.toJson)) = some r.errors :=
    list_array fun e he => FileError.ofJson?_toJson (h.errors e he)
  simp [ofJson?, hgiven, required, orElse, choice, FileState.ofName?_name, text, Json.Decode.bool, hlanguage,
    hentities, herrors]

end FileReport

/-! ## Scans -/

namespace Tally

theorem put_of_lt {t : Tally} {key : String} (h : ∀ e ∈ t, e.1 < key) (n : Nat) :
    put key n t = t ++ [(key, n)] := by
  induction t with
  | nil => rfl
  | cons e es ih =>
    obtain ⟨k, m⟩ := e
    have hlt : k < key := h (k, m) (by simp)
    have hne : (key == k) = false := beq_false_of_ne (ne_of_gt hlt)
    rw [put, hne, ih fun e he => h e (by simp [he])]
    simp [lt_asymm hlt]

/-- Counts in the order of their keys are put one behind the other. -/
theorem foldlM_put {t before : Tally} (hcounts : ∀ e ∈ t, e.2 < UInt64.size)
    (hordered : (before ++ t).Pairwise (fun a b => a.1 < b.1)) :
    (t.map fun e => (e.1, Json.natural e.2)).foldlM
      (fun (acc : Tally) f => do return put f.1 (← word64 f.2) acc) before = some (before ++ t) := by
  induction t generalizing before with
  | nil => simp
  | cons e es ih =>
    have hlast : ∀ b ∈ before, b.1 < e.1 := by
      intro b hb
      exact (List.pairwise_append.mp hordered).2.2 b hb e (by simp)
    have hrest := @ih (before ++ [e]) (fun d hd => hcounts d (by simp [hd]))
      (by simpa using hordered)
    simpa [word64_natural (hcounts e (by simp)), put_of_lt hlast] using hrest

theorem ofJson?_toJson {t : Tally} (hcounts : ∀ e ∈ t, e.2 < UInt64.size)
    (hordered : t.Pairwise (fun a b => a.1 < b.1)) : ofJson? t.toJson = some t :=
  foldlM_put hcounts hordered

end Tally

namespace Counters

theorem whole_toJson {c : Counters} (h : c.Representable) : Whole c.toJson := by
  have htally : Whole c.perLanguage.toJson := by
    refine .object fun f hf => ?_
    obtain ⟨e, he, rfl⟩ := List.mem_map.mp hf
    exact .natural (h.counts e he)
  exact .ofFields ⟨.natural h.scanned, .natural h.parsed, .natural h.failed,
    .natural h.unsupported, .natural h.tests, .natural h.entities, htally⟩

theorem ofJson?_toJson {c : Counters} (h : c.Representable) : ofJson? c.toJson = some c := by
  have hgiven : given [
      ("files_scanned", .refused), ("files_parsed", .refused), ("files_failed", .refused),
      ("files_unsupported", .refused), ("test_files", .refused), ("entities", .refused),
      ("per_language", .refused)] c.toJson =
      some [some (.natural c.scanned), some (.natural c.parsed), some (.natural c.failed),
        some (.natural c.unsupported), some (.natural c.tests), some (.natural c.entities),
        some c.perLanguage.toJson] := rfl
  simp [ofJson?, hgiven, required, word64_natural, h.scanned, h.parsed, h.failed, h.unsupported,
    h.tests, h.entities, Tally.ofJson?_toJson h.counts h.ordered]

end Counters

namespace ScanReport

theorem whole_toJson {r : ScanReport} (h : r.Representable) : Whole r.toJson := by
  refine .ofFields ⟨.text _, .array fun v hv => ?_, Counters.whole_toJson h.counters,
    .natural h.elapsedMs, .bool _⟩
  obtain ⟨f, hf, rfl⟩ := List.mem_map.mp hv
  exact FileReport.whole_toJson (h.files f hf)

theorem depth_file {r : ScanReport} {f : FileReport} (h : f ∈ r.files) :
    f.toJson.depth ≤ r.toJson.depth := by
  have hitem : f.toJson.depth ≤ Json.depthOfItems (r.files.map FileReport.toJson) :=
    Json.depth_le_of_mem (List.mem_map_of_mem h)
  simp only [toJson, Json.depth, Json.depthOfFields]
  omega

theorem ofJson?_toJson {r : ScanReport} (h : r.Representable)
    (hdepth : r.toJson.depth ≤ Json.nestingLimit) : ofJson? r.toJson = some r := by
  have hgiven : given [
      ("root", .refused), ("files", .refused), ("counters", .refused), ("elapsed_ms", .refused),
      ("cancelled", .default)] r.toJson =
      some [some (.text r.root), some (.array (r.files.map FileReport.toJson)),
        some r.counters.toJson, some (.natural r.elapsedMs), some (.bool r.cancelled)] := rfl
  have hfiles : list FileReport.ofJson? (.array (r.files.map FileReport.toJson)) = some r.files :=
    list_array fun f hf =>
      FileReport.ofJson?_toJson (h.files f hf) ((depth_file hf).trans hdepth)
  simp [ofJson?, hgiven, required, orElse, text, Json.Decode.bool, hfiles,
    Counters.ofJson?_toJson h.counters, word64_natural h.elapsedMs]

theorem parse?_render {r : ScanReport} (h : r.Representable)
    (hdepth : r.toJson.depth < Json.nestingLimit) : parse? r.render = some r := by
  rw [parse?, render, Json.parse?, Json.read_pretty (whole_toJson h) hdepth, Option.bind_some]
  exact ofJson?_toJson h hdepth.le

theorem writeText_of_save {r : ScanReport} {d d' : Disk} {path : String}
    (h : r.save d path = .ok d') :
    ∃ around, d.makeAround path = .ok around ∧ around.writeText path r.render = .ok d' :=
  exists_of_bind_ok h

/-- **A report reads back as it was written**, from the document and from the file, if its document
nests fewer levels than the reader takes. -/
theorem written_report_reads_back {r : ScanReport} (h : r.Representable)
    (hdepth : r.toJson.depth < Json.nestingLimit) :
    parse? r.render = some r ∧
      ∀ (d d' : Disk) (path : String), r.save d path = .ok d' → readBack? d' path = some r := by
  have hparse := parse?_render h hdepth
  refine ⟨hparse, fun d d' path hsave => ?_⟩
  obtain ⟨around, -, hwrite⟩ := writeText_of_save hsave
  rw [readBack?, Disk.readText_of_writeText hwrite]
  exact hparse

/-- A report with every field given and left out, awkward texts and the largest numbers. -/
def awkward : ScanReport where
  root := "C:\\src \"x\"\t\x01\x7f/é\u2028😀"
  files := [
    ⟨"", none, true, .failed, [],
      [⟨.parse, "line\nbreak", some ⟨18446744073709551615, 1, 0⟩⟩, ⟨.io, "", none⟩]⟩,
    ⟨"a/b.py", some "python", false, .done,
      [.entity ⟨⟨0⟩, .classDecl, "\\u0041", none, some "", some "Base", none, ⟨0, 9, 1, 1, 2, 3⟩⟩
        [.entity ⟨⟨4294967295⟩, .methodDecl, "null", some "[]", none, none, some ⟨0⟩,
          ⟨18446744073709551615, 0, 0, 0, 0, 0⟩⟩ []]], []⟩]
  counters := ⟨2, 1, 1, 0, 1, 2, [("", 0), ("python", 18446744073709551615)]⟩
  elapsedMs := 18446744073709551615
  cancelled := true

theorem written_report_reads_back_awkward :
    awkward.Representable ∧ awkward.toJson.depth < Json.nestingLimit ∧
    parse? awkward.render = some awkward ∧
    ∃ d, awkward.save { top := .directory [], working := [] } "out/report.json" = .ok d ∧
      readBack? d "out/report.json" = some awkward := by
  have hentity : ∀ e ∈ (awkward.files.flatMap (·.entities)), e.Representable := by
    simp only [awkward, List.flatMap_cons, List.flatMap_nil, List.append_nil, List.nil_append,
      List.forall_mem_cons, List.not_mem_nil, false_implies, implies_true, and_true]
    refine .entity (by constructor <;> decide) ?_
    simp only [List.forall_mem_cons, List.not_mem_nil, false_implies, implies_true, and_true]
    exact .entity (by constructor <;> decide) (by simp)
  have hreport : awkward.Representable := by
    refine ⟨fun f hf => ⟨fun e he => hentity e (List.mem_flatMap.mpr ⟨f, hf, he⟩), ?_⟩, ?_, ?_⟩
    · revert f
      simp only [awkward, List.forall_mem_cons, List.not_mem_nil, false_implies, implies_true,
        and_true, Option.mem_def, Option.some.injEq, forall_eq', reduceCtorEq]
      constructor <;> decide
    · constructor <;> decide
    · decide
  have hdepth : awkward.toJson.depth < Json.nestingLimit := by cbv
  obtain ⟨hparse, hfile⟩ := written_report_reads_back hreport hdepth
  have hsave : ∃ d, awkward.save { top := .directory [], working := [] } "out/report.json" = .ok d := by
    have hparent : PathName.parent? "out/report.json" = some "out" := by cbv
    have hmake : ({ top := .directory [], working := [] } : Disk).createDirectories "out" =
        .ok { top := .directory [("out", .directory [])], working := [] } := by cbv
    have hparts : PathName.parts "out/report.json" = ["out", "report.json"] := by cbv
    have habsolute : PathName.isAbsolute "out/report.json" = false := by decide
    refine ⟨⟨.directory [("out", .directory
      [("report.json", .file (Text.Utf8.encode awkward.render))])], [], fun _ => false⟩, ?_⟩
    simp [save, Disk.makeAround, hparent, hmake, Disk.writeText, Disk.write, Disk.locate, habsolute,
      hparts, Disk.locateFrom, DiskItem.at?, DiskItem.child?, Disk.add, Disk.put, DiskItem.put,
      DiskItem.putEntry, bind, Except.bind]
  obtain ⟨d, hd⟩ := hsave
  exact ⟨hreport, hdepth, hparse, d, hd, hfile _ d _ hd⟩

end ScanReport

end CodeAtlas
