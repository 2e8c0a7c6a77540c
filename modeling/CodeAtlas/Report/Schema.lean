import CodeAtlas.Json.Decode
import CodeAtlas.Json.Printer
import CodeAtlas.Json.Reader
import CodeAtlas.Report.Flat

/-!
Reports as JSON.  Optional texts, parents and places are left out when absent, and so are empty lists
of children; everything else is always written, in a fixed order.  Reading accepts what writing
produces and passes over unknown keys.
-/

namespace CodeAtlas

open Json (Decoder)
open Json.Decode

/-! ## Places -/

namespace Location

def toJson (l : Location) : Json :=
  .object [("offset", .natural l.offset), ("line", .natural l.line), ("column", .natural l.column)]

def ofJson? : Decoder Location := fun v => do
  match ← given [("offset", .refused), ("line", .refused), ("column", .refused)] v with
  | [offset, line, column] =>
    return ⟨← required word64 offset, ← required word64 line, ← required word64 column⟩
  | _ => none

end Location

namespace Span

def toJson (s : Span) : Json :=
  .object [
    ("start_byte", .natural s.startByte), ("end_byte", .natural s.endByte),
    ("start_line", .natural s.startLine), ("start_col", .natural s.startCol),
    ("end_line", .natural s.endLine), ("end_col", .natural s.endCol)]

def ofJson? : Decoder Span := fun v => do
  match ← given [
      ("start_byte", .refused), ("end_byte", .refused), ("start_line", .refused),
      ("start_col", .refused), ("end_line", .refused), ("end_col", .refused)] v with
  | [startByte, endByte, startLine, startCol, endLine, endCol] =>
    return {
      startByte := ← required word64 startByte
      endByte := ← required word64 endByte
      startLine := ← required word64 startLine
      startCol := ← required word64 startCol
      endLine := ← required word64 endLine
      endCol := ← required word64 endCol }
  | _ => none

end Span

/-! ## Entities -/

namespace EntityId

def toJson (id : EntityId) : Json := .natural id.number.toNat

def ofJson? : Decoder EntityId := fun v => (word32 v).map (⟨·⟩)

end EntityId

namespace Facts

def toFields (f : Facts) : List (String × Json) :=
  [("id", f.id.toJson), ("kind", .text f.kind.name), ("name", .text f.name)] ++
    Json.optional "declared_type" (f.declaredType.map .text) ++
    Json.optional "return_type" (f.returnType.map .text) ++
    Json.optional "reference" (f.reference.map .text) ++
    Json.optional "parent" (f.parent.map EntityId.toJson) ++
    [("span", f.span.toJson)]

def shape : Shape :=
  [("id", .refused), ("kind", .refused), ("name", .refused), ("declared_type", .default),
    ("return_type", .default), ("reference", .default), ("parent", .default), ("span", .refused),
    ("children", .default)]

end Facts

namespace Entity

mutual

def toJson : Entity → Json
  | .entity f cs =>
    .object (f.toFields ++ (if cs.isEmpty then [] else [("children", .array (toJsonAll cs))]))

def toJsonAll : List Entity → List Json
  | [] => []
  | e :: es => toJson e :: toJsonAll es

end

/-- An entity that nests at most `depth` levels. -/
def ofJsonWithin : Nat → Decoder Entity
  | 0, _ => none
  | depth + 1, v => do
    match ← given Facts.shape v with
    | [id, kind, name, declaredType, returnType, reference, parent, span, children] =>
      let facts : Facts := {
        id := ← required EntityId.ofJson? id
        kind := ← required (choice Kind.ofName?) kind
        name := ← required text name
        declaredType := ← perhaps text declaredType
        returnType := ← perhaps text returnType
        reference := ← perhaps text reference
        parent := ← perhaps EntityId.ofJson? parent
        span := ← required Span.ofJson? span }
      let kids ← orElse (list (ofJsonWithin depth)) [] children
      return .entity facts kids
    | _ => none

/-- An entity from JSON.  Each level of entities takes two levels of nesting, so the limit on
nesting bounds it. -/
def ofJson? : Decoder Entity := ofJsonWithin Json.nestingLimit

end Entity

/-! ## Files -/

namespace FileError

def toJson (e : FileError) : Json :=
  .object ([("kind", .text e.kind.name), ("message", .text e.message)] ++
    Json.optional "location" (e.location.map Location.toJson))

def ofJson? : Decoder FileError := fun v => do
  match ← given [("kind", .refused), ("message", .refused), ("location", .default)] v with
  | [kind, message, location] =>
    return {
      kind := ← required (choice FailureKind.ofName?) kind
      message := ← required text message
      location := ← perhaps Location.ofJson? location }
  | _ => none

end FileError

namespace FileReport

def toJson (r : FileReport) : Json :=
  .object [
    ("path", .text r.path), ("language", Json.ofText? r.language), ("is_test", .bool r.isTest),
    ("state", .text r.state.name), ("entities", .array (Entity.toJsonAll r.entities)),
    ("errors", .array (r.errors.map FileError.toJson))]

def ofJson? : Decoder FileReport := fun v => do
  match ← given [
      ("path", .refused), ("language", .asNull), ("is_test", .default), ("state", .refused),
      ("entities", .refused), ("errors", .refused)] v with
  | [path, language, isTest, state, entities, errors] =>
    return {
      path := ← required text path
      language := ← perhaps text language
      isTest := ← orElse bool false isTest
      state := ← required (choice FileState.ofName?) state
      entities := ← required (list Entity.ofJson?) entities
      errors := ← required (list FileError.ofJson?) errors }
  | _ => none

end FileReport

/-! ## Scans -/

namespace Tally

def toJson (t : Tally) : Json :=
  .object (t.map fun e => (e.1, .natural e.2))

/-- The tally with a count put under a key. -/
def put (key : String) (n : Nat) : Tally → Tally
  | [] => [(key, n)]
  | (k, m) :: rest =>
    if key == k then (k, n) :: rest
    else if key < k then (key, n) :: (k, m) :: rest
    else (k, m) :: put key n rest

/-- A tally from the fields of an object; the last count of a key holds. -/
def ofJson? : Decoder Tally
  | .object fields => fields.foldlM (fun t f => do return put f.1 (← word64 f.2) t) []
  | _ => none

end Tally

namespace Counters

def toJson (c : Counters) : Json :=
  .object [
    ("files_scanned", .natural c.scanned), ("files_parsed", .natural c.parsed),
    ("files_failed", .natural c.failed), ("files_unsupported", .natural c.unsupported),
    ("test_files", .natural c.tests), ("entities", .natural c.entities),
    ("per_language", c.perLanguage.toJson)]

def ofJson? : Decoder Counters := fun v => do
  match ← given [
      ("files_scanned", .refused), ("files_parsed", .refused), ("files_failed", .refused),
      ("files_unsupported", .refused), ("test_files", .refused), ("entities", .refused),
      ("per_language", .refused)] v with
  | [scanned, parsed, failed, unsupported, tests, entities, perLanguage] =>
    return {
      scanned := ← required word64 scanned
      parsed := ← required word64 parsed
      failed := ← required word64 failed
      unsupported := ← required word64 unsupported
      tests := ← required word64 tests
      entities := ← required word64 entities
      perLanguage := ← required Tally.ofJson? perLanguage }
  | _ => none

end Counters

namespace ScanReport

def toJson (r : ScanReport) : Json :=
  .object [
    ("root", .text r.root), ("files", .array (r.files.map FileReport.toJson)),
    ("counters", r.counters.toJson), ("elapsed_ms", .natural r.elapsedMs),
    ("cancelled", .bool r.cancelled)]

def ofJson? : Decoder ScanReport := fun v => do
  match ← given [
      ("root", .refused), ("files", .refused), ("counters", .refused), ("elapsed_ms", .refused),
      ("cancelled", .default)] v with
  | [root, files, counters, elapsedMs, cancelled] =>
    return {
      root := ← required text root
      files := ← required (list FileReport.ofJson?) files
      counters := ← required Counters.ofJson? counters
      elapsedMs := ← required word64 elapsedMs
      cancelled := ← orElse bool false cancelled }
  | _ => none

def render (r : ScanReport) : String :=
  r.toJson.pretty

def parse? (document : String) : Option ScanReport :=
  (Json.parse? document).bind ofJson?

end ScanReport

/-! ## Rows -/

namespace FlatRecord

def toJson (r : FlatRecord) : Json :=
  .object ([
    ("file", .text r.file), ("language", .text r.language), ("kind", .text r.kind.name),
    ("name", .text r.name), ("qualified_name", .text r.qualifiedName)] ++
    Json.optional "declared_type" (r.declaredType.map .text) ++
    Json.optional "return_type" (r.returnType.map .text) ++
    Json.optional "reference" (r.reference.map .text) ++
    [("line", .natural r.line)] ++
    Json.optional "parent" (r.parent.map EntityId.toJson))

end FlatRecord

end CodeAtlas
