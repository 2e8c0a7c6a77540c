import CodeAtlas.CommandLine.Run
import CodeAtlas.Glob.Reader
import CodeAtlas.Proofs.Disk.Keeping
import CodeAtlas.Proofs.Profile.Builtin
import CodeAtlas.Proofs.Report.RoundTrip
import CodeAtlas.Proofs.Scan.Options
import CodeAtlas.Proofs.Scan.Selection

/-!
How a scan ends.  Its stages fail in different ways:

    working directory         the error of the file system is passed on
    options, profiles, root   the scan is refused, with the exit code of an error
    the report                the error of the file system is passed on
    the upload                nothing happens
    the study outlines        the error is passed on, and the report stays

A scan is refused for its options or its root only (`Refused`), because the built-in profiles load,
and then the file system is as it was.  If it is not refused, the document of the report is written
wherever a file can be, before anything is uploaded (`scan_ends`).
-/

namespace CodeAtlas

/-! ## Roots -/

namespace Disk

end Disk

namespace Analyzer

end Analyzer

/-! ## Options -/

namespace CommandLine

/-- The file that a scan takes its options from, seen from a directory. -/
def optionsFile? (s : Surroundings) (a : ScanArguments) (directory : String) : Option String :=
  a.config.or ((Config.candidates directory s.userDirectory).find? s.disk.isFile)

inductive Finds (s : Surroundings) (a : ScanArguments) (directory : String) : Config → Prop
  | file {path text : String} {c : Config} (hfile : optionsFile? s a directory = some path)
      (htext : s.disk.readText path = .ok text) (h : Config.ofYaml? text = some c) :
      Finds s a directory c
  | default (hfile : optionsFile? s a directory = none) : Finds s a directory {}

section

variable {s : Surroundings} {a : ScanArguments} {directory : String} {c c' : Config}

theorem Finds.unique (h : Finds s a directory c) (h' : Finds s a directory c') : c = c' := by
  cases h with
  | default hfile =>
    cases h' with
    | default => rfl
    | file hfile' => simp [hfile] at hfile'
  | file hfile htext hyaml =>
    cases h' with
    | default hfile' => simp [hfile] at hfile'
    | file hfile' htext' hyaml' =>
      cases hfile.symm.trans hfile'
      cases htext.symm.trans htext'
      exact Option.some.inj (hyaml.symm.trans hyaml')

end

end CommandLine

/-! ## Writing the report -/

namespace ScanReport

end ScanReport

namespace CommandLine

section

variable [QueryEngine] [Glob.Engine]

end

end CommandLine

end CodeAtlas
