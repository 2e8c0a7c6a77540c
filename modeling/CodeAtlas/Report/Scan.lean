import CodeAtlas.Report.File
import CodeAtlas.Text.Words

/-!
The report on a directory: the reports on its files, in the order of their paths, and counters over
them.  `Counters.record` counts one file; `Tally` counts per key and keeps the keys in order.
-/

namespace CodeAtlas

/-- Counts by key, in the order of the keys. -/
abbrev Tally := List (String × Nat)

namespace Tally

/-- One more under a key. -/
def add (key : String) : Tally → Tally
  | [] => [(key, 1)]
  | (k, n) :: rest =>
    if key == k then (k, n + 1) :: rest
    else if key < k then (key, 1) :: (k, n) :: rest
    else (k, n) :: add key rest

end Tally

/-- Counters over the files of a scan. -/
structure Counters where
  /-- Files with a report. -/
  scanned : Nat
  /-- Files whose text the grammar accepted. -/
  parsed : Nat
  /-- Files that failed, unsupported ones aside. -/
  failed : Nat
  /-- Files without a language. -/
  unsupported : Nat
  tests : Nat
  /-- Entities of all files, nested ones included. -/
  entities : Nat
  /-- Files by language. -/
  perLanguage : Tally
deriving DecidableEq, Repr, Inhabited

namespace Counters

def zero : Counters := ⟨0, 0, 0, 0, 0, 0, []⟩

/-- One where a condition holds. -/
def one (b : Bool) : Nat := if b then 1 else 0

/-- Whether one of the file's errors is that no profile has its extension. -/
def isUnsupported (r : FileReport) : Bool :=
  r.errors.any (fun e => e.kind == .unsupportedLanguage)

/-- The counters after one more file. -/
def record (c : Counters) (r : FileReport) (parsed : Bool) : Counters where
  scanned := c.scanned + 1
  parsed := c.parsed + one parsed
  failed := c.failed + one (r.isFailed && !isUnsupported r)
  unsupported := c.unsupported + one (r.isFailed && isUnsupported r)
  tests := c.tests + one r.isTest
  entities := c.entities + r.entityCount
  perLanguage :=
    match r.language with
    | some l => Tally.add l c.perLanguage
    | none => c.perLanguage

end Counters

structure ScanReport where
  root : String
  files : List FileReport
  counters : Counters
  elapsedMs : Nat
  /-- The scan was cancelled, and only the files it had begun are reported. -/
  cancelled : Bool
deriving Repr, BEq, Inhabited

namespace ScanReport

def file? (r : ScanReport) (path : String) : Option FileReport :=
  r.files.find? (fun f => f.path == path)

def failedFiles (r : ScanReport) : List FileReport :=
  r.files.filter (·.isFailed)

/-- The languages of the files, in order and without repetition. -/
def languages (r : ScanReport) : List String :=
  ((r.files.filterMap (·.language)).mergeSort Text.lexLe).eraseDups

def filesOf (r : ScanReport) (language : String) : List FileReport :=
  r.files.filter (fun f => f.language == some language)

/-- The files by language; files without a language are left out. -/
def byLanguage (r : ScanReport) : List (String × List FileReport) :=
  r.languages.map (fun l => (l, r.filesOf l))

end ScanReport

end CodeAtlas
