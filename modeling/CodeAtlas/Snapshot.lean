import CodeAtlas.Disk
import CodeAtlas.Glob.Reader
import CodeAtlas.Json.Value
import CodeAtlas.Query.Interpreter
import CodeAtlas.Source

/-!
A snapshot of a directory: its files and links, and the syntax trees of the texts in it.  It is given
as a list of items, each of them an object with a `path` and one of

* `source` or `source_hex`, the text or the bytes of a file, and maybe its `tree`,
* `dir`, for an empty directory,
* `link`, the target of a symbolic link.

A tree is listed in preorder; a row has the depth of a node, its kind, where it starts and ends, the
sum of its marks, and the field that it stands under.
-/

namespace CodeAtlas

/-! ## Trees -/

namespace Json

/-- A natural number, where anything else counts as zero. -/
def toNat : Json → Nat
  | .natural n => n
  | _ => 0

def textAt? (key : String) (v : Json) : Option String :=
  (v.get? key).bind text?

/-- The items under a key; none when there is no list. -/
def itemsAt (key : String) (v : Json) : List Json :=
  ((v.get? key).bind items?).getD []

end Json

namespace Node.Row

/-- A row of a listed tree.  The marks are powers of two: named, missing, error, extra, and a repair
at or below the node. -/
def ofJson? : Json → Option Node.Row
  | .array (depth :: kind :: first :: last :: marks :: more) =>
    let mark (bit : Nat) : Bool := marks.toNat.testBit bit
    some ⟨depth.toNat, ⟨kind.text?.getD "", first.toNat, last.toNat, mark 0, mark 1, mark 2, mark 3, mark 4,
      more.head?.bind Json.text?⟩⟩
  | _ => none

end Node.Row

def Node.ofJson? (v : Json) : Option Node :=
  Node.ofRows? ((v.itemsAt "nodes").filterMap Node.Row.ofJson?)

structure ParsedText where
  grammar : Handle
  bytes : List UInt8
  root : Node
deriving Inhabited

namespace ParsedText

/-- A text and its tree, if one is given. -/
def ofJson? (bytes : List UInt8) (v : Json) : Option ParsedText := do
  let tree ← v.get? "tree"
  return ⟨← Handle.ofName? (← tree.textAt? "grammar"), bytes, ← Node.ofJson? tree⟩

/-- The tree for bytes, an empty one if none is given. -/
def lookup (texts : List ParsedText) : Parser := fun grammar bytes =>
  let found := texts.find? fun t => t.grammar == grammar && t.bytes == bytes
  .ok ((found.map (·.root)).getD default)

end ParsedText

/-! ## Items -/

/-- What is put at a path. -/
inductive Placement where
  | file (bytes : List UInt8)
  | directory
  | link (target : String)
deriving DecidableEq, Repr, Inhabited

namespace Placement

/-- The bytes that a sequence of hexadecimal digits stands for. -/
def ofHex : List Char → List UInt8
  | a :: b :: rest => (hexDigit a * 16 + hexDigit b).toUInt8 :: ofHex rest
  | _ => []
where
  /-- The value of a digit in lower case. -/
  hexDigit (c : Char) : Nat :=
    if c.isDigit then c.toNat - '0'.toNat else c.toNat - 'a'.toNat + 10

def bytesOf (v : Json) : List UInt8 :=
  match v.textAt? "source_hex" with
  | some digits => ofHex digits.toList
  | none => Text.Utf8.encode ((v.textAt? "source").getD "")

/-- What an item puts at its path. -/
def ofJson (v : Json) : Placement :=
  match v.textAt? "link", v.get? "dir" with
  | some target, _ => .link target
  | none, some (.bool true) => .directory
  | none, _ => .file (bytesOf v)

end Placement

/-- A file system and the trees of texts in it. -/
structure Snapshot where
  disk : Disk
  texts : List ParsedText
deriving Inhabited

namespace Snapshot

/-- An empty working directory under the given names. -/
def empty (working : List String) : Snapshot where
  disk.top := working.foldr (fun name item => .directory [(name, item)]) (.directory [])
  disk.working := working
  texts := []

def parser (s : Snapshot) : Parser := ParsedText.lookup s.texts

/-- The file system with something put at a path, in place of what stood there; directories around it
are made. -/
def place (d : Disk) (path : String) (p : Placement) : Except OsError Disk := do
  let d ← match PathName.parent? path with
    | some around => d.createDirectories around
    | none => pure d
  match p with
  | .file bytes => d.write path bytes
  | .directory => d.createDirectories path
  | .link target =>
    match (← d.locate false path) with
    | .vacant names _ | .found names => return d.put names (.link target)

/-- The snapshot with an item put in; an item that the file system refuses is left out. -/
def insert (s : Snapshot) (item : Json) : Snapshot :=
  let p := Placement.ofJson item
  let texts := match p with
    | .file bytes => (ParsedText.ofJson? bytes item).toList
    | _ => []
  match place s.disk ((item.textAt? "path").getD "") p with
  | .ok d => ⟨d, texts ++ s.texts⟩
  | .error _ => s

def insertAll (s : Snapshot) (items : List Json) : Snapshot :=
  items.foldl insert s

def erase (s : Snapshot) (path : String) : Snapshot :=
  match s.disk.locate false path with
  | .ok (.found names) => { s with disk := s.disk.erase names }
  | _ => s

/-- The files below the working directory that another file system does not have, in the order of their
paths from there. -/
def newFiles (before after : Disk) : List (String × List UInt8) :=
  let files (d : Disk) : List (String × List UInt8) :=
    (((d.top.at? d.working).map (DiskItem.files [])).getD []).map fun f => (Text.join "/" f.1, f.2)
  let known := (files before).map (·.1)
  ((files after).filter fun f => !known.contains f.1).mergeSort fun a b => Text.lexLe a.1 b.1

end Snapshot

end CodeAtlas
