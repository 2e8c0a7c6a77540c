import CodeAtlas.Analyzer
import CodeAtlas.CommandLine.Arguments
import CodeAtlas.Config.Discovery

/-!
Running commands.  A command sees the file system as a value and leaves another one; what it prints
comes as lines.  A scan ends with an error when its options cannot be had or used or its root cannot be
accessed, and then it has written nothing.  Without a working directory it does not even look for
options.
-/

namespace CodeAtlas.CommandLine

variable [QueryEngine] [Glob.Engine]

/-- What a command finds around it. -/
structure Surroundings where
  disk : Disk
  parser : Parser
  network : Network
  /-- The time in seconds, when it is known. -/
  time : Option Nat
  /-- The directory for the user's options. -/
  userDirectory : Option String

/-- What a command leaves: its exit code, the lines it printed and the file system. -/
structure Outcome where
  exit : Nat
  output : List String
  errors : List String
  disk : Disk

def exitSuccess : Nat := 0

def exitError : Nat := 2

/-- A command that failed after printing nothing. -/
def Outcome.failed (d : Disk) (message : String) : Outcome :=
  ⟨exitError, [], ["Error: " ++ message], d⟩

/-! ## Scan -/

/-- How a scan ends.  It gives an exit code, or passes on an error of the file system. -/
structure ScanEnd where
  code : Except OsError Nat
  output : List String
  errors : List String
  disk : Disk

namespace ScanEnd

/-- A scan that is refused before it writes anything. -/
def refused (d : Disk) (message : String) : ScanEnd :=
  ⟨.ok exitError, [], ["Error: " ++ message], d⟩

/-- A scan that passes on an error before it writes anything. -/
def passed (d : Disk) (e : OsError) : ScanEnd :=
  ⟨.error e, [], [], d⟩

/-- What a scan leaves; an error that was passed on gets the exit code of an error. -/
def outcome (e : ScanEnd) : Outcome :=
  match e.code with
  | .ok code => ⟨code, e.output, e.errors, e.disk⟩
  | .error f => ⟨exitError, e.output, e.errors ++ ["Error: " ++ f.message], e.disk⟩

end ScanEnd

/-- The options with what the command line says in their place. -/
def ScanArguments.applyTo (a : ScanArguments) (c : Config) : Config :=
  { c with
    outputPath := a.output.getD c.outputPath
    uploadUrl := a.uploadUrl.or c.uploadUrl
    upload := c.upload || a.upload || a.uploadUrl.isSome
    maxWorkers := a.workers.getD c.maxWorkers }

/-- A text with spaces after it, up to a width. -/
def padded (width : Nat) (s : String) : String :=
  s ++ String.ofList (List.replicate (width - s.length) ' ')

/-- A section of lines after an empty one, left out when it has none. -/
def afterBlankLine (lines : List String) : List String :=
  if lines.isEmpty then [] else "" :: lines

def summary (r : ScanReport) : List String :=
  let c := r.counters
  let failed := (r.failedFiles.filter (·.language.isSome)).flatMap fun f =>
    f.errors.map fun e => "  " ++ f.path ++ " " ++ e.message
  let hasFailed := r.failedFiles.any (·.language.isSome)
  ["", "Scan summary",
    "  Root:        " ++ r.root,
    "  Files:       " ++ toString c.scanned,
    "  Parsed:      " ++ toString c.parsed,
    "  Failed:      " ++ toString c.failed,
    "  Unsupported: " ++ toString c.unsupported,
    "  Entities:    " ++ toString c.entities,
    "  Elapsed:     " ++ toString r.elapsedMs ++ " ms"] ++
    afterBlankLine (c.perLanguage.map fun e => "  " ++ padded 12 e.1 ++ " " ++ toString e.2) ++
    (if hasFailed then ["", "Failed files"] ++ failed else [])

def receiptLine (r : Receipt) : String :=
  "Uploaded analysis" ++ (match r.id with
    | some id => " (id " ++ id ++ ")"
    | none => "")

/-- An analyzer over the built-in profiles, with the options found from a directory and overridden. -/
def prepare (s : Surroundings) (a : ScanArguments) (directory : String) :
    Except AnalysisFault Analyzer := do
  let (config, _) ← (Config.discover s.disk a.config directory s.userDirectory).mapError .config
  let profiles ← Registry.builtin.mapError .profiles
  (Analyzer.create profiles .empty (a.applyTo config)).mapError .config

/-- Writes the study outlines, if there is a directory for them. -/
def ScanArguments.study (a : ScanArguments) (report : ScanReport) (d : Disk) :
    Except OsError Unit × Disk :=
  match a.learningDir with
  | none => (.ok (), d)
  | some directory =>
    let (pages, d) := report.saveStudy d directory
    (pages.map fun _ => (), d)

/-- What a scan does with its report: it writes it, uploads it and writes the study outlines.  If the
report cannot be written, the directories around it may be there all the same. -/
def deliver (s : Surroundings) (a : ScanArguments) (quiet : Bool) (analyzer : Analyzer)
    (report : ScanReport) : ScanEnd :=
  match report.save s.disk analyzer.config.outputPath with
  | .error e =>
    let left := (s.disk.makeAround analyzer.config.outputPath).toOption.getD s.disk
    ⟨.error e, [], [], left⟩
  | .ok disk =>
    let receipt := (analyzer.upload s.network s.time report).map receiptLine
    let lines := if quiet then [] else receipt.toList
    let (study, disk) := a.study report disk
    match study with
    | .error e => ⟨.error e, lines, [], disk⟩
    | .ok () =>
      let told := if quiet then []
        else summary report ++ ["Wrote " ++ analyzer.config.outputPath]
      ⟨.ok exitSuccess, lines ++ told, [], disk⟩

def runScan (s : Surroundings) (a : ScanArguments) (quiet : Bool) : ScanEnd :=
  match s.disk.workingDirectory with
  | .error e => .passed s.disk e
  | .ok directory =>
    match prepare s a directory with
    | .error f => .refused s.disk f.message
    | .ok analyzer =>
      match analyzer.scan s.parser s.disk a.root false with
      | .error f => .refused s.disk f.message
      | .ok (report, analyzer) => deliver s a quiet analyzer report

/-! ## Languages -/

def profileLines (p : Profile) : List String :=
  [p.id] ++
    (if p.aliases.isEmpty then [] else ["  aliases:    " ++ Text.join ", " p.aliases]) ++
    ["  extensions: " ++ Text.join ", " p.extensions,
      "  grammars:   " ++ Text.join ", " (p.grammars.map (·.id)),
      "  queries:    " ++ Text.join " " (p.queries.toList.map fun q =>
        q.name.text ++ "@v" ++ toString q.version)]

def runLanguages (s : Surroundings) : Outcome :=
  match Registry.builtin with
  | .error f => .failed s.disk f.message
  | .ok profiles => ⟨exitSuccess, profiles.sorted.flatMap profileLines, [], s.disk⟩

/-! ## Outline -/

def entityLine (depth : Nat) (f : Facts) : String :=
  Outline.indent depth ++ f.kind.name ++ " " ++ f.name ++ Outline.part ": " f.declaredType "" ++
    Outline.part " -> " f.returnType "" ++ Outline.part " [" f.reference "]" ++ "  " ++ f.span.describe

def outlineTitle (r : FileReport) : String :=
  r.path ++ " (" ++ r.language.getD "unknown" ++ ")"

def outlineLines (r : FileReport) : List String :=
  outlineTitle r :: Outline.forestLines entityLine 1 r.entities

/-- Prints the entities of a file, with some profiles. -/
def outlineWith (s : Surroundings) (profiles : Registry) (file : String) : Outcome :=
  match Analyzer.create profiles .empty {} with
  | .error f => .failed s.disk f.message
  | .ok analyzer =>
    let (report, _) := analyzer.structureFile s.parser s.disk file
    if report.isFailed then
      ⟨exitError, [], report.errors.map fun e => "Error: " ++ e.message, s.disk⟩
    else ⟨exitSuccess, outlineLines report, [], s.disk⟩

def runOutline (s : Surroundings) (file : String) : Outcome :=
  match Registry.builtin with
  | .error f => .failed s.disk (AnalysisFault.profiles f).message
  | .ok profiles => outlineWith s profiles file

def run (s : Surroundings) (i : Invocation) : Outcome :=
  match i.command with
  | .scan a => (runScan s a i.quiet).outcome
  | .languages => runLanguages s
  | .outline file => runOutline s file

end CodeAtlas.CommandLine
