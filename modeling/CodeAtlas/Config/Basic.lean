import CodeAtlas.Glob.Engine
import CodeAtlas.Json.Decode
import CodeAtlas.Text.Quoted
import CodeAtlas.Text.Words

/-!
The options of a scan.  Every option has a default.  Options are consistent when uploading has a place
to go to and the globs can be compiled; `Config.validate` then gives the compiled globs.
-/

namespace CodeAtlas

structure Config where
  /-- Globs of the paths to pass over, seen from the root of the scan. -/
  ignoreGlobs : List String := []
  /-- Where the result is written. -/
  outputPath : String := "codestruct-analysis.json"
  /-- Whether the result is uploaded. -/
  upload : Bool := false
  uploadUrl : Option String := none
  /-- Names of the directories to pass over wherever they are. -/
  excludedDirs : List String :=
    [".git", "node_modules", "target", "vendor", "dist", "build", "__pycache__", ".venv"]
  /-- The number of workers; zero leaves it open. -/
  maxWorkers : Nat := 0
  /-- The size in bytes above which files are passed over. -/
  maxFileSize : Nat := 1048576
  includeHidden : Bool := false
  followLinks : Bool := false
  uploadTimeoutMs : Nat := 30000
deriving DecidableEq, Repr, Inhabited

/-- Why options cannot be had or used. -/
inductive ConfigFault where
  /-- The file with the options cannot be read. -/
  | read (path reason : String)
  /-- The file holds no options. -/
  | parse (path : String)
  /-- A glob cannot be read, or all of them cannot be compiled together. -/
  | invalidGlob (pattern reason : String)
  /-- Uploading is asked for and there is no place to upload to. -/
  | missingUploadUrl
deriving DecidableEq, Repr, Inhabited

def ConfigFault.message : ConfigFault → String
  | .read path reason => "failed to read config " ++ path ++ ": " ++ reason
  | .parse path => "invalid config " ++ path ++ ": not a set of scan options"
  | .invalidGlob pattern reason =>
    "invalid ignore glob " ++ Text.quoted pattern ++ ": " ++ reason
  | .missingUploadUrl => "upload is enabled but no upload_url is configured"

namespace Config

section

variable [Glob.Engine]

def ignoreSet (c : Config) : Except ConfigFault Glob.PatternSet :=
  (Glob.PatternSet.compile c.ignoreGlobs).mapError fun f => .invalidGlob f.1 f.2

def hasUploadUrl (c : Config) : Bool :=
  c.uploadUrl.any (fun url => !Text.allBlank url)

/-- The compiled globs of consistent options. -/
def validate (c : Config) : Except ConfigFault Glob.PatternSet :=
  if c.upload && !c.hasUploadUrl then .error .missingUploadUrl else c.ignoreSet

end

/-- Whether directories of this name are passed over. -/
def isExcludedDir (c : Config) (name : String) : Bool :=
  c.excludedDirs.contains name

/-! ## Written forms -/

def fieldNames : List String :=
  ["ignore_globs", "output_path", "upload", "upload_url", "excluded_dirs", "max_workers",
    "max_file_size", "include_hidden", "follow_links", "upload_timeout_ms"]

def toJson (c : Config) : Json :=
  .object [("ignore_globs", Json.ofTexts c.ignoreGlobs), ("output_path", .text c.outputPath),
    ("upload", .bool c.upload), ("upload_url", Json.ofText? c.uploadUrl),
    ("excluded_dirs", Json.ofTexts c.excludedDirs), ("max_workers", .natural c.maxWorkers),
    ("max_file_size", .natural c.maxFileSize), ("include_hidden", .bool c.includeHidden),
    ("follow_links", .bool c.followLinks), ("upload_timeout_ms", .natural c.uploadTimeoutMs)]

/-- Options from a JSON value; an option that is not given has its default. -/
def ofJson? (v : Json) : Option Config := do
  let shape : Json.Decode.Shape := fieldNames.map fun f => (f, .default)
  match (← Json.Decode.given shape v) with
  | [globs, output, upload, url, dirs, workers, size, hidden, links, timeout] =>
    let base : Config := {}
    return {
      ignoreGlobs := ← Json.Decode.orElse (Json.Decode.list Json.Decode.text) base.ignoreGlobs globs
      outputPath := ← Json.Decode.orElse Json.Decode.text base.outputPath output
      upload := ← Json.Decode.orElse Json.Decode.bool base.upload upload
      uploadUrl := ← Json.Decode.orElse (Json.Decode.nullable Json.Decode.text) base.uploadUrl url
      excludedDirs := ← Json.Decode.orElse (Json.Decode.list Json.Decode.text) base.excludedDirs dirs
      maxWorkers := ← Json.Decode.orElse Json.Decode.word64 base.maxWorkers workers
      maxFileSize := ← Json.Decode.orElse Json.Decode.word64 base.maxFileSize size
      includeHidden := ← Json.Decode.orElse Json.Decode.bool base.includeHidden hidden
      followLinks := ← Json.Decode.orElse Json.Decode.bool base.followLinks links
      uploadTimeoutMs := ← Json.Decode.orElse Json.Decode.word64 base.uploadTimeoutMs timeout }
  | _ => none

end Config

end CodeAtlas
