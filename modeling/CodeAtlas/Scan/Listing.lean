import CodeAtlas.Disk

/-!
What a walk finds below a directory.  With links followed, a link stands for what it leads to; one
that leads to a directory around it, or nowhere, stands for nothing that a scan could use.  A locked
directory shows no entries.
-/

namespace CodeAtlas

/-- A directory tree as a walk sees it. -/
inductive Listing where
  | file (size : Nat)
  | folder (entries : List (String × Listing))
  /-- Neither a file nor a directory. -/
  | other
deriving Repr, Inhabited

namespace Listing

/-- What a walk finds at a place.  `around` holds the places of the directories around it, and `fuel`
bounds their number. -/
def ofItem (d : Disk) (follow : Bool) :
    Nat → List (List String) → List String → DiskItem → Listing
  | 0, _, _, _ => .other
  | _ + 1, _, _, .file bytes => .file bytes.length
  | _ + 1, _, _, .lockedFile size => .file size
  | _ + 1, _, _, .lockedDirectory => .folder []
  | fuel + 1, around, place, .directory entries =>
    .folder (entries.map fun e =>
      (e.1, ofItem d follow fuel (place :: around) (place ++ [e.1]) e.2))
  | fuel + 1, around, place, .link _ =>
    if !follow then .other
    else
      match d.locateFrom true Disk.linkLimit place.dropLast (place.getLast?.toList) with
      | .ok (.found target) =>
        if around.contains target then .other
        else
          match d.top.at? target with
          | some item => ofItem d follow fuel around target item
          | none => .other
      | _ => .other

end Listing

namespace Disk

/-- The entries below a directory, or why there are none. -/
def listing (d : Disk) (follow : Bool) (root : String) :
    Except String (List (String × Listing)) := do
  match (← (d.find root).mapError OsError.message) with
  | (place, .directory entries) =>
    let bound := (d.top.count + 1) * (d.top.count + 1)
    return entries.map fun e =>
      (e.1, Listing.ofItem d follow bound [place] (place ++ [e.1]) e.2)
  | (_, .lockedDirectory) => throw OsError.permissionDenied.message
  | _ => throw "not a directory"

end Disk

end CodeAtlas
