import CodeAtlas.PathName
import CodeAtlas.Text.Utf8

/-!
A file system as a process sees it: directories, files and symbolic links below one root, the working
directory, and what the process may do.  It may do nothing with a locked item but see that it is
there, it may change neither a fixed file nor the names in a fixed directory, and everything else is
open to it; what it can write it can also read.  A path is followed name by name; every name but the
last has to lead to a directory that is not locked, and at most forty links are followed.
-/

namespace CodeAtlas

/-- Why the file system refuses something. -/
inductive OsError where
  | notFound
  | fileExists
  | notDirectory
  | isDirectory
  | tooManyLinks
  | permissionDenied
deriving DecidableEq, Repr, Inhabited

def OsError.message : OsError → String
  | .notFound => "No such file or directory (os error 2)"
  | .fileExists => "File exists (os error 17)"
  | .notDirectory => "Not a directory (os error 20)"
  | .isDirectory => "Is a directory (os error 21)"
  | .tooManyLinks => "Too many levels of symbolic links (os error 40)"
  | .permissionDenied => "Permission denied (os error 13)"

/-- What stands under a name. -/
inductive DiskItem where
  | file (bytes : List UInt8)
  | link (target : String)
  | directory (entries : List (String × DiskItem))
  /-- A file of some size that can be neither read nor written. -/
  | lockedFile (size : Nat)
  /-- A directory that can be neither listed nor entered. -/
  | lockedDirectory
deriving Repr, Inhabited

namespace DiskItem

def child? (name : String) (entries : List (String × DiskItem)) : Option DiskItem :=
  (entries.find? (fun e => e.1 == name)).map (·.2)

/-- The item that some names lead to, links not followed. -/
def at? : DiskItem → List String → Option DiskItem
  | item, [] => some item
  | .directory entries, n :: ns => (child? n entries).bind (fun item => item.at? ns)
  | _, _ :: _ => none

theorem at?_nil (item : DiskItem) : item.at? [] = some item := by
  cases item <;> rfl

def putEntry (name : String) (item : DiskItem) :
    List (String × DiskItem) → List (String × DiskItem)
  | [] => [(name, item)]
  | e :: es => if e.1 == name then (name, item) :: es else e :: putEntry name item es

/-- The item with another one put where some names lead; the way there has to exist. -/
def put (new : DiskItem) : DiskItem → List String → DiskItem
  | _, [] => new
  | .directory entries, n :: ns =>
    .directory (putEntry n (new.put ((child? n entries).getD (.directory [])) ns) entries)
  | item, _ :: _ => item

def erase : DiskItem → List String → DiskItem
  | .directory entries, [n] => .directory (entries.filter (fun e => e.1 != n))
  | .directory entries, n :: ns =>
    match child? n entries with
    | some item => .directory (putEntry n (item.erase ns) entries)
    | none => .directory entries
  | item, _ => item

mutual

def count : DiskItem → Nat
  | .directory entries => countAll entries + 1
  | _ => 1

def countAll : List (String × DiskItem) → Nat
  | [] => 0
  | (_, item) :: es => item.count + countAll es

end

mutual

/-- The files below an item with the names that lead to them. -/
def files (before : List String) : DiskItem → List (List String × List UInt8)
  | .file bytes => [(before, bytes)]
  | .directory entries => filesOf before entries
  | _ => []

def filesOf (before : List String) : List (String × DiskItem) → List (List String × List UInt8)
  | [] => []
  | (name, item) :: es => item.files (before ++ [name]) ++ filesOf before es

end

end DiskItem

/-- A file system and the names from its root to the working directory. -/
structure Disk where
  top : DiskItem
  working : List String
  /-- The places of the files that cannot be written, and of the directories without new names. -/
  isFixed : List String → Bool := fun _ => false
deriving Inhabited

namespace Disk

/-! ## Paths -/

/-- Where a path leads. -/
inductive Place where
  /-- To an item. -/
  | found (names : List String)
  /-- To a name that is free in its directory; the flag tells of a slash after it. -/
  | vacant (names : List String) (slash : Bool)
deriving DecidableEq, Repr

def linkLimit : Nat := 40

/-- Follows the parts of a path from a directory; a link at the end is followed if `follow` says so. -/
def locateFrom (d : Disk) (follow : Bool) (links : Nat) (place : List String) (parts : List String) :
    Except OsError Place :=
  match parts with
  | [] => .ok (.found place)
  | part :: more =>
    match d.top.at? place with
    | some (.directory entries) =>
      if part == "" || part == "." then locateFrom d follow links place more
      else if part == ".." then locateFrom d follow links place.dropLast more
      else
        match DiskItem.child? part entries with
        | some (.link target) =>
          if more.isEmpty && !follow then .ok (.found (place ++ [part]))
          else
            match links with
            | 0 => .error .tooManyLinks
            | links + 1 =>
              let start := if PathName.isAbsolute target then [] else place
              locateFrom d follow links start (PathName.parts target ++ more)
        | some _ => locateFrom d follow links (place ++ [part]) more
        | none =>
          if more.all (· == "") then .ok (.vacant (place ++ [part]) (!more.isEmpty))
          else .error .notFound
    | some .lockedDirectory => .error .permissionDenied
    | some _ => .error .notDirectory
    | none => .error .notFound
termination_by (links, parts.length)

def locate (d : Disk) (follow : Bool) (path : String) : Except OsError Place :=
  if path.isEmpty then .error .notFound
  else
    let start := if PathName.isAbsolute path then [] else d.working
    locateFrom d follow linkLimit start (PathName.parts path)

/-- The names and the item that a path leads to. -/
def find (d : Disk) (path : String) : Except OsError (List String × DiskItem) := do
  match (← d.locate true path) with
  | .found names =>
    match d.top.at? names with
    | some item => return (names, item)
    | none => throw .notFound
  | .vacant _ _ => throw .notFound

/-- The working directory as a path; one that has been removed has none. -/
def workingDirectory (d : Disk) : Except OsError String :=
  match d.top.at? d.working with
  | some (.directory _) | some .lockedDirectory => .ok ("/" ++ Text.join "/" d.working)
  | _ => .error .notFound

/-! ## Reading -/

def isFile (d : Disk) (path : String) : Bool :=
  match d.find path with
  | .ok (_, .file _) | .ok (_, .lockedFile _) => true
  | _ => false

def isDirectory (d : Disk) (path : String) : Bool :=
  match d.find path with
  | .ok (_, .directory _) | .ok (_, .lockedDirectory) => true
  | _ => false

def read (d : Disk) (path : String) : Except OsError (List UInt8) := do
  match (← d.find path).2 with
  | .file bytes => return bytes
  | .lockedFile _ | .lockedDirectory => throw .permissionDenied
  | _ => throw .isDirectory

/-- The text of a file, or why there is none in words. -/
def readText (d : Disk) (path : String) : Except String String :=
  match d.read path with
  | .error e => .error e.message
  | .ok bytes =>
    match Text.Utf8.decode? bytes with
    | some text => .ok text
    | none => .error "stream did not contain valid UTF-8"

/-! ## Writing -/

def put (d : Disk) (names : List String) (item : DiskItem) : Disk :=
  { d with top := item.put d.top names }

/-- The file system with an item under a free name, if its directory takes new names. -/
def add (d : Disk) (names : List String) (item : DiskItem) : Except OsError Disk :=
  if d.isFixed names.dropLast then .error .permissionDenied else .ok (d.put names item)

/-- Writes a file, in place of what it held before. -/
def write (d : Disk) (path : String) (bytes : List UInt8) : Except OsError Disk := do
  match (← d.locate true path) with
  | .vacant names false => d.add names (.file bytes)
  | .vacant _ true => throw .isDirectory
  | .found names =>
    match d.top.at? names with
    | some (.file _) =>
      if d.isFixed names then throw .permissionDenied else return d.put names (.file bytes)
    | some (.lockedFile _) => throw .permissionDenied
    | _ => throw .isDirectory

def writeText (d : Disk) (path text : String) : Except OsError Disk :=
  d.write path (Text.Utf8.encode text)

/-- Makes a directory under a free name. -/
def createDirectory (d : Disk) (path : String) : Except OsError Disk := do
  match (← d.locate false path) with
  | .vacant names _ => d.add names (.directory [])
  | .found _ => throw .fileExists

/-- Makes a directory and those around it that are missing; `depth` bounds the names of the path. -/
def createDirectoriesFrom : Nat → Disk → String → Except OsError Disk
  | 0, d, _ => .ok d
  | depth + 1, d, path =>
    if path.isEmpty then .ok d
    else
      let settle (d : Disk) : OsError → Except OsError Disk := fun e =>
        if d.isDirectory path then .ok d else .error e
      match d.createDirectory path with
      | .ok d => .ok d
      | .error .notFound => do
        match PathName.parent? path with
        | none => throw .notFound
        | some around =>
          let d ← createDirectoriesFrom depth d around
          match d.createDirectory path with
          | .ok d => return d
          | .error e => settle d e
      | .error e => settle d e

/-- Makes a directory and those around it that are missing. -/
def createDirectories (d : Disk) (path : String) : Except OsError Disk :=
  createDirectoriesFrom ((PathName.segments path).length + 1) d path

def erase (d : Disk) (names : List String) : Disk :=
  { d with top := d.top.erase names }

end Disk

end CodeAtlas
