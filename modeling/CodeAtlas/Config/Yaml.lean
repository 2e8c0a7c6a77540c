import CodeAtlas.Config.Basic
import CodeAtlas.Yaml.Decode

/-!
Options from YAML text.
-/

namespace CodeAtlas.Config

open CodeAtlas.Yaml in
/-- The options of a document; an option that is not given has its default. -/
def ofDocument? (d : Document) : Option Config := do
  let orElse {α : Type} (read : Document → Yaml.Node → Option α) (fallback : α) :
      Option Yaml.Node → Option α
    | some n => read d n
    | none => some fallback
  match (← Decode.given fieldNames d d.root) with
  | [globs, output, upload, url, dirs, workers, size, hidden, links, timeout] =>
    let base : Config := {}
    let texts (d : Document) := Decode.list (Decode.text d) d
    return {
      ignoreGlobs := ← orElse texts base.ignoreGlobs globs
      outputPath := ← orElse Decode.text base.outputPath output
      upload := ← orElse Decode.bool base.upload upload
      uploadUrl := ← orElse Decode.textOrNull base.uploadUrl url
      excludedDirs := ← orElse texts base.excludedDirs dirs
      maxWorkers := ← orElse Decode.word64 base.maxWorkers workers
      maxFileSize := ← orElse Decode.word64 base.maxFileSize size
      includeHidden := ← orElse Decode.bool base.includeHidden hidden
      followLinks := ← orElse Decode.bool base.followLinks links
      uploadTimeoutMs := ← orElse Decode.word64 base.uploadTimeoutMs timeout }
  | _ => none

/-- The options that a text holds; a blank text holds the defaults. -/
def ofYaml? (text : String) : Option Config :=
  if Text.allBlank text then some {} else (Yaml.Document.read? text).bind ofDocument?

end CodeAtlas.Config
