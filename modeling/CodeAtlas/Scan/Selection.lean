import CodeAtlas.Config.Basic
import CodeAtlas.Scan.Listing

/-!
The files of a scan.  A walk goes down from the root and leaves out, with everything below it, each
entry that is hidden, each directory with an excluded name, and each entry whose path below the root
the ignore rule matches; of the files it meets it leaves out those that are too large.  The root
itself is never left out.
-/

namespace CodeAtlas

/-- A file to analyse: the path to read it by, and its path below the root. -/
structure FoundFile where
  path : String
  relative : String
deriving DecidableEq, Repr, Inhabited

structure RootFault where
  path : String
  reason : String
deriving DecidableEq, Repr, Inhabited

def RootFault.message (f : RootFault) : String :=
  "cannot access scan root " ++ f.path ++ ": " ++ f.reason

namespace Selection

def isHidden (name : String) : Bool :=
  name.toList.head? == some '.'

/-- Whether the walk passes over an entry with these names below the root. -/
def prunes (c : Config) (ignore : String → Bool) (names : List String) (item : Listing) : Bool :=
  let name := names.getLast?.getD ""
  (!c.includeHidden && isHidden name) ||
    (match item with
     | .folder _ => c.isExcludedDir name
     | _ => false) ||
    ignore (Text.join "/" names)

mutual

/-- The names that lead to the files of an entry. -/
def ofEntry (c : Config) (ignore : String → Bool) (names : List String) : Listing → List (List String)
  | .file size => if c.maxFileSize < size then [] else [names]
  | .folder entries => ofEntries c ignore names entries
  | .other => []

/-- The names that lead to the files of several entries, without what is passed over. -/
def ofEntries (c : Config) (ignore : String → Bool) (before : List String) :
    List (String × Listing) → List (List String)
  | [] => []
  | (name, item) :: rest =>
    (if prunes c ignore (before ++ [name]) item then []
     else ofEntry c ignore (before ++ [name]) item) ++ ofEntries c ignore before rest

end

/-- The paths below the root of the selected files, in order. -/
def relativePaths (c : Config) (ignore : String → Bool) (entries : List (String × Listing)) :
    List String :=
  ((ofEntries c ignore [] entries).map (Text.join "/")).mergeSort Text.lexLe

def checkRoot (d : Disk) (root : String) : Except RootFault Unit :=
  match d.listing false root with
  | .ok _ => .ok ()
  | .error reason => .error ⟨root, reason⟩

/-- The files of a scan, in the order of their paths below the root. -/
def collect (d : Disk) (c : Config) (ignore : String → Bool) (root : String) :
    Except RootFault (List FoundFile) :=
  match d.listing c.followLinks root with
  | .error reason => .error ⟨root, reason⟩
  | .ok entries =>
    .ok ((relativePaths c ignore entries).map fun relative =>
      ⟨PathName.joined root relative, relative⟩)

end Selection

end CodeAtlas
