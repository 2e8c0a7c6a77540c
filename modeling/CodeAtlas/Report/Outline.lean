import CodeAtlas.Report.Scan

/-!
Study outlines as Markdown pages: an index with the counters, and one page for each language that
lists its files with their entities, one line an entity and two spaces a level.  The lines come from
`forestLines`, which goes over a forest and asks for each entity's line; other outlines use it with
lines of their own.
-/

namespace CodeAtlas

namespace Outline

def indent (depth : Nat) : String :=
  String.ofList (List.replicate (2 * depth) ' ')

/-- A part of a line that is there only with a text. -/
def part (before : String) (text : Option String) (after : String) : String :=
  match text with
  | some t => before ++ t ++ after
  | none => ""

def entityLine (depth : Nat) (f : Facts) : String :=
  indent depth ++ "- **" ++ f.kind.name ++ "** `" ++ (if f.name.isEmpty then "_" else f.name) ++ "`" ++
    part ": `" f.declaredType "`" ++ part " -> `" f.returnType "`" ++
    part " (refs `" f.reference "`)" ++ " (line " ++ toString f.span.startLine ++ ")"

mutual

/-- One line for an entity and one for each entity below it, parents first.  `line` gives the line of
an entity at a depth. -/
def entityLines {α : Type} (line : Nat → Facts → α) (depth : Nat) : Entity → List α
  | .entity f cs => line depth f :: forestLines line (depth + 1) cs

def forestLines {α : Type} (line : Nat → Facts → α) (depth : Nat) : List Entity → List α
  | [] => []
  | e :: es => entityLines line depth e ++ forestLines line depth es

end

/-- Lines as a text that ends with a line feed. -/
def page (lines : List String) : String :=
  String.join (lines.map (· ++ "\n"))

def fileTitle (r : FileReport) : String :=
  "## `" ++ r.path ++ "`" ++ (if r.isTest then " (test)" else "")

def fileLines (r : FileReport) : List String :=
  if r.entities.isEmpty then [fileTitle r, "", "_No declarations._", ""]
  else [fileTitle r, ""] ++ forestLines entityLine 0 r.entities ++ [""]

/-- The page of a language: its files that did not fail. -/
def languagePage (language : String) (files : List FileReport) : String :=
  page (["# " ++ language, ""] ++ (files.filter (fun r => !r.isFailed)).flatMap fileLines)

def failedLine (r : FileReport) : String :=
  let reason := (r.errors.head?.map (fun e => e.kind.name)).getD "unknown"
  "- `" ++ r.path ++ "` (" ++ reason ++ ")"

/-- A section with a title, left out when it has no lines. -/
def titled (title : String) (lines : List String) : List String :=
  if lines.isEmpty then [] else ["", title, ""] ++ lines

def indexPage (r : ScanReport) : String :=
  page ([
    "# Code structure of `" ++ r.root ++ "`", "",
    "- Files scanned: " ++ toString r.counters.scanned,
    "- Files parsed: " ++ toString r.counters.parsed,
    "- Files failed: " ++ toString r.counters.failed,
    "- Entities: " ++ toString r.counters.entities] ++
    titled "## Languages" (r.counters.perLanguage.map fun e =>
      "- [" ++ e.1 ++ "](" ++ e.1 ++ ".md): " ++ toString e.2 ++ " files") ++
    titled "## Files that could not be structured" (r.failedFiles.map failedLine))

def languagePages (r : ScanReport) : List (String × String) :=
  r.byLanguage.map (fun g => (g.1, languagePage g.1 g.2))

end Outline

end CodeAtlas
