import CodeAtlas.Config.Yaml
import CodeAtlas.Disk

/-!
Finding the options of a scan: in the file that is asked for, else in a file of the working directory,
else in the file of the user, else the defaults.
-/

namespace CodeAtlas.Config

/-- The names under which a directory may hold options, the preferred one first. -/
def fileNames : List String := ["codestruct.yaml", ".codestruct.yaml"]

def ofFile (d : Disk) (path : String) : Except ConfigFault Config :=
  match d.readText path with
  | .error reason => .error (.read path reason)
  | .ok text =>
    match ofYaml? text with
    | some c => .ok c
    | none => .error (.parse path)

/-- The user's file for options below the directory for them. -/
def userFile (directory : String) : String :=
  PathName.joined (PathName.joined directory "codestruct") "config.yaml"

/-- The files that may hold options, in the order in which they are looked for. -/
def candidates (directory : String) (userDirectory : Option String) : List String :=
  fileNames.map (PathName.joined directory) ++ (userDirectory.map userFile).toList

/-- The options and the file that they come from. -/
def discover (d : Disk) (explicit : Option String) (directory : String)
    (userDirectory : Option String) : Except ConfigFault (Config × Option String) :=
  match explicit with
  | some path => (ofFile d path).map fun c => (c, some path)
  | none =>
    match (candidates directory userDirectory).find? d.isFile with
    | some path => (ofFile d path).map fun c => (c, some path)
    | none => .ok ({}, none)

end CodeAtlas.Config
