import CodeAtlas.Entity.Structure
import CodeAtlas.Profile.Registry
import CodeAtlas.Report.Outline
import CodeAtlas.Scan.Selection
import CodeAtlas.Upload

/-!
Analysing files and directories.  Each file goes through four steps: a profile is found for its
extension, its bytes are read, its text is parsed and its entities are structured.  The first step
that fails ends the work on this file and on no other.
-/

namespace CodeAtlas

/-- Why an analysis cannot start. -/
inductive AnalysisFault where
  | root (fault : RootFault)
  | profiles (fault : ProfileFault)
  | config (fault : ConfigFault)
deriving Repr, Inhabited

def AnalysisFault.message : AnalysisFault → String
  | .root f => f.message
  | .profiles f => "language profiles are invalid: " ++ f.message
  | .config f => f.message

/-! ## Single files -/

/-- What came of one file: the report, and whether the grammar accepted its text. -/
structure FileOutcome where
  report : FileReport
  parsed : Bool
deriving Repr, Inhabited

namespace FileOutcome

/-- The report on a file that no profile has the extension of. -/
def unsupported (relative extension : String) : FileOutcome :=
  ⟨(FileReport.start relative none).fail (Failure.unsupported relative extension).toError, false⟩

/-- The outcome for a file with a profile, after a failure or with its entities. -/
def ofResult (start : FileReport) (parsed : Bool) : Except Failure (List Entity) → FileOutcome
  | .error e => ⟨start.fail e.toError, parsed⟩
  | .ok entities => ⟨{ start with entities := entities, state := .done }, parsed⟩

end FileOutcome

/-- The profile for a path: the one that its extension leads to. -/
def Registry.profileFor? (r : Registry) (path : String) : Option Profile :=
  let extension := (PathName.extension? path).getD ""
  if extension.isEmpty then none else r.resolve? extension

section

variable [QueryEngine]

/-- The outcome for the bytes of a file, with the cache after it. -/
def FileOutcome.ofBytes (structurer : Structurer) (parser : Parser) (p : Profile)
    (start : FileReport) (bytes : List UInt8) (cache : QueryCache) : FileOutcome × QueryCache :=
  match SourceFile.parseValid parser p start.path bytes with
  | .error e => (ofResult start false (.error e), cache)
  | .ok source =>
    let (entities, cache) := (structurer p source).through cache
    (ofResult start true entities, cache)

/-- Runs one file through all steps. -/
def processFile (structurer : Structurer) (parser : Parser) (profiles : Registry)
    (read : String → Except OsError (List UInt8)) (file : FoundFile) (cache : QueryCache) :
    FileOutcome × QueryCache :=
  match profiles.profileFor? file.relative with
  | none =>
    (.unsupported file.relative ((PathName.extension? file.relative).getD ""), cache)
  | some p =>
    let start := { FileReport.start file.relative (some p.id) with
      isTest := p.isTestFile file.relative }
    match read file.path with
    | .error e => (.ofResult start false (.error (.io file.relative e.message)), cache)
    | .ok bytes => FileOutcome.ofBytes structurer parser p start bytes cache

def processFiles (structurer : Structurer) (parser : Parser) (profiles : Registry)
    (read : String → Except OsError (List UInt8)) :
    List FoundFile → QueryCache → List FileOutcome × QueryCache
  | [], cache => ([], cache)
  | f :: fs, cache =>
    let (outcome, cache) := processFile structurer parser profiles read f cache
    let (outcomes, cache) := processFiles structurer parser profiles read fs cache
    (outcome :: outcomes, cache)

end

/-! ## Reports on directories -/

namespace Counters

def ofOutcomes (outcomes : List FileOutcome) : Counters :=
  outcomes.foldl (fun c o => c.record o.report o.parsed) .zero

end Counters

/-- The file system with the directories around a path, which are made where they are missing. -/
def Disk.makeAround (d : Disk) (path : String) : Except OsError Disk :=
  match PathName.parent? path with
  | some around => if around.isEmpty then .ok d else d.createDirectories around
  | none => .ok d

namespace ScanReport

/-- The report of a scan from the outcomes of its files, in any order. -/
def ofOutcomes (root : String) (outcomes : List FileOutcome) (cancelled : Bool) (elapsedMs : Nat) :
    ScanReport where
  root := root
  files := (outcomes.map (·.report)).mergeSort (fun a b => Text.lexLe a.path b.path)
  counters := .ofOutcomes outcomes
  elapsedMs := elapsedMs
  cancelled := cancelled

/-- Writes a report as a document, with the directories around it. -/
def save (r : ScanReport) (d : Disk) (path : String) : Except OsError Disk := do
  let d ← d.makeAround path
  d.writeText path r.render

def readBack? (d : Disk) (path : String) : Option ScanReport :=
  match d.readText path with
  | .ok text => parse? text
  | .error _ => none

/-- The pages of the study outlines with their paths, the index last. -/
def studyPages (r : ScanReport) (directory : String) : List (String × String) :=
  (Outline.languagePages r).map (fun p => (PathName.joined directory (p.1 ++ ".md"), p.2)) ++
    [(PathName.joined directory "index.md", Outline.indexPage r)]

end ScanReport

/-- Writes texts one after another, up to the first that is refused. -/
def Disk.writeAll (d : Disk) : List (String × String) → Except OsError Unit × Disk
  | [] => (.ok (), d)
  | (path, text) :: more =>
    match d.writeText path text with
    | .error e => (.error e, d)
    | .ok d => d.writeAll more

/-- Writes the study outlines into a directory and gives their paths. -/
def ScanReport.saveStudy (r : ScanReport) (d : Disk) (directory : String) :
    Except OsError (List String) × Disk :=
  match d.createDirectories directory with
  | .error e => (.error e, d)
  | .ok d =>
    let pages := r.studyPages directory
    let (written, d) := d.writeAll pages
    (written.map fun _ => pages.map (·.1), d)

/-! ## The analyzer -/

variable [QueryEngine] [Glob.Engine]

/-- Profiles, compiled queries, a way to structure files, and options.  The ignore rule belongs to the
options, and the options are consistent. -/
structure Analyzer where
  profiles : Registry
  cache : QueryCache
  structurer : Structurer
  config : Config
  ignore : Glob.PatternSet
  valid : config.validate = .ok ignore

namespace Analyzer

def withComponents (profiles : Registry) (cache : QueryCache) (structurer : Structurer)
    (config : Config) : Except ConfigFault Analyzer :=
  match h : config.validate with
  | .ok ignore => .ok ⟨profiles, cache, structurer, config, ignore, h⟩
  | .error e => .error e

/-- An analyzer that structures files by the queries of their profiles. -/
def create (profiles : Registry) (cache : QueryCache) (config : Config) :
    Except ConfigFault Analyzer :=
  withComponents profiles cache .query config

/-- The analyzer with other options, if they are consistent. -/
def updateConfig (a : Analyzer) (config : Config) : Except ConfigFault Analyzer :=
  withComponents a.profiles a.cache a.structurer config

/-- Puts other options in place.  If they are refused, the analyzer stays what it is. -/
def update (a : Analyzer) (config : Config) : Except ConfigFault Unit × Analyzer :=
  match a.updateConfig config with
  | .ok next => (.ok (), next)
  | .error e => (.error e, a)

def files (a : Analyzer) (d : Disk) (root : String) : Except RootFault (List FoundFile) :=
  Selection.collect d a.config a.ignore.accepts root

/-- Scans a root.  `begun` tells which files were begun before the scan was cancelled. -/
def scanBegun (a : Analyzer) (parser : Parser) (d : Disk) (root : String)
    (begun : FoundFile → Bool) (cancelled : Bool) : Except RootFault (ScanReport × Analyzer) := do
  let files ← a.files d root
  let (outcomes, cache) :=
    processFiles a.structurer parser a.profiles d.read (files.filter begun) a.cache
  return (.ofOutcomes root outcomes cancelled 0, { a with cache := cache })

/-- Scans a root; a scan that is cancelled before it starts begins no file. -/
def scan (a : Analyzer) (parser : Parser) (d : Disk) (root : String) (cancelled : Bool) :
    Except RootFault (ScanReport × Analyzer) :=
  a.scanBegun parser d root (fun _ => !cancelled) cancelled

/-- Structures one file, which is reported under the path that is given. -/
def structureFile (a : Analyzer) (parser : Parser) (d : Disk) (path : String) :
    FileReport × Analyzer :=
  let (outcome, cache) := processFile a.structurer parser a.profiles d.read ⟨path, path⟩ a.cache
  (outcome.report, { a with cache := cache })

/-- Uploads a report when uploading is asked for; a failure leaves no receipt. -/
def upload (a : Analyzer) (network : Network) (time : Option Nat) (r : ScanReport) :
    Option Receipt :=
  if a.config.upload then
    a.config.uploadUrl.bind fun url => (Upload.send network time url r).toOption
  else none

end Analyzer

end CodeAtlas
