import CodeAtlas.Text.Words

/-!
Path names with `/` between their segments.  Empty segments count for nothing, and so does `.`
unless the path starts with it.
-/

namespace CodeAtlas

inductive Segment where
  | root
  | here
  | up
  | name (text : String)
deriving DecidableEq, Repr, Inhabited

namespace Segment

def text : Segment → String
  | .root => "/"
  | .here => "."
  | .up => ".."
  | .name s => s

def ofText (s : String) : Segment :=
  if s == ".." then .up else if s == "." then .here else .name s

end Segment

namespace PathName

def parts (path : String) : List String :=
  (Text.pieces (· == '/') path.toList).map String.ofList

/-- The parts that name something: not empty and not `.`. -/
def naming (parts : List String) : List Segment :=
  (parts.filter (fun p => p != "" && p != ".")).map Segment.ofText

def segments (path : String) : List Segment :=
  match parts path with
  | "" :: more => if more.isEmpty then [] else .root :: naming more
  | "." :: more => .here :: naming more
  | all => naming all

def isAbsolute (path : String) : Bool :=
  path.toList.head? == some '/'

/-- The last segment, if it is a name. -/
def fileName? (path : String) : Option String :=
  match (segments path).getLast? with
  | some (.name s) => some s
  | _ => none

/-- What follows the last dot of a file name, if something precedes the dot. -/
def extension? (path : String) : Option String := do
  let name ← fileName? path
  let reversed := name.toList.reverse
  let after := reversed.takeWhile (· != '.')
  match reversed.dropWhile (· != '.') with
  | _ :: _ :: _ => some (String.ofList after.reverse)
  | _ => none

/-- The segments of the directory that holds a path. -/
def directory (path : String) : List Segment :=
  match (segments path).getLast? with
  | some .root => []
  | _ => (segments path).dropLast

/-- The text of a path with the given segments: a slash between two, and none after the root. -/
def ofSegments : List Segment → String
  | .root :: rest => "/" ++ Text.join "/" (rest.map Segment.text)
  | segments => Text.join "/" (segments.map Segment.text)

/-- The path of the directory that holds a path; the root and the empty path are in none. -/
def parent? (path : String) : Option String :=
  match segments path with
  | [] => none
  | [.root] => none
  | all => some (ofSegments all.dropLast)

/-- The second path seen from the first: an absolute path stands for itself. -/
def joined (base path : String) : String :=
  if isAbsolute path then path
  else if base == "" || base.toList.getLast? == some '/' then base ++ path
  else base ++ "/" ++ path

/-- The segments that are left of `path` after those of `root`, if it starts with them. -/
def stripSegments? : List Segment → List Segment → Option (List Segment)
  | [], rest => some rest
  | _ :: _, [] => none
  | a :: as, b :: bs => if a = b then stripSegments? as bs else none

/-- The path below a root with slashes between its segments; a path that does not lie below the root
keeps all of them. -/
def relative (root path : String) : String :=
  let rest := (stripSegments? (segments root) (segments path)).getD (segments path)
  Text.join "/" (rest.map Segment.text)

end PathName

/-- A rule that tells test files by their path. -/
inductive TestRule where
  /-- The file name is this one. -/
  | named (name : String)
  | nameStarts (lead : String)
  | nameEnds (tail : String)
  /-- Some directory on the path has this name. -/
  | inDirectory (name : String)
  /-- These directories stand next to each other on the path. -/
  | inDirectories (names : List String)
  | both (a b : TestRule)
  | anyOf (rules : List TestRule)
deriving Repr, Inhabited

namespace TestRule

/-- Whether `names` stands in the list without a gap. -/
def hasRun (names : List String) : List String → Bool
  | [] => names.isEmpty
  | x :: xs => names.isPrefixOf (x :: xs) || hasRun names xs

mutual

def accepts (path : String) : TestRule → Bool
  | .named name => (PathName.fileName? path).getD "" == name
  | .nameStarts lead => Text.startsWith lead ((PathName.fileName? path).getD "")
  | .nameEnds tail => Text.endsWith tail ((PathName.fileName? path).getD "")
  | .inDirectory name => ((PathName.directory path).map Segment.text).contains name
  | .inDirectories names => hasRun names ((PathName.directory path).map Segment.text)
  | .both a b => accepts path a && accepts path b
  | .anyOf rules => acceptsAny path rules

def acceptsAny (path : String) : List TestRule → Bool
  | [] => false
  | r :: rs => accepts path r || acceptsAny path rs

end

end TestRule

end CodeAtlas
