import CodeAtlas.Disk
import CodeAtlas.Proofs.Text.Decoding

/-!
Writing a file and reading it.  The names that a path leads to are a file or a free name in a
directory (`Writable`); putting a file there leaves everything else where it was and of its kind, so
the later file system *extends* the earlier one (`Extends`).  A path that led somewhere is then
followed as before, link by link, and still leads there (`Extends.locate`), the path of the new file
too:

    d.write path bytes = .ok d' → d'.read path = .ok bytes      (read_of_write)
-/

namespace CodeAtlas

namespace DiskItem

/-- Some names lead to a file, or to a free name in a directory. -/
inductive Writable : DiskItem → List String → Prop
  | file (bytes : List UInt8) : Writable (.file bytes) []
  | vacant {entries : List (String × DiskItem)} {name : String} (h : child? name entries = none) :
      Writable (.directory entries) [name]
  | inside {entries : List (String × DiskItem)} {name : String} {item : DiskItem}
      {names : List String} (h : child? name entries = some item) (hw : Writable item names) :
      Writable (.directory entries) (name :: names)

theorem child?_putEntry (name other : String) (item : DiskItem) (entries : List (String × DiskItem)) :
    child? other (putEntry name item entries) =
      if other = name then some item else child? other entries := by
  induction entries with
  | nil =>
    by_cases h : other = name
    · simp [putEntry, child?, h]
    · simp [putEntry, child?, h, Ne.symm h]
  | cons e es ih =>
    simp only [child?] at ih
    rw [putEntry]
    by_cases he : e.1 = name
    · by_cases h : other = name
      · simp [child?, he, h]
      · simp [child?, he, h, Ne.symm h]
    · by_cases h : e.1 = other
      · have hne : other ≠ name := by rwa [← h]
        simp [child?, h, hne]
      · simp [child?, he, h, ih]

theorem at?_append (item : DiskItem) (above below : List String) :
    item.at? (above ++ below) = (item.at? above).bind (·.at? below) := by
  induction above generalizing item with
  | nil => cases item <;> rfl
  | cons n ns ih =>
    cases item with
    | file | link | lockedFile | lockedDirectory => rfl
    | directory entries =>
      rw [List.cons_append, at?, at?]
      cases child? n entries with
      | none => rfl
      | some item => exact ih item

/-- The entries of the directory that some names lead to are what one name more leads to. -/
theorem at?_snoc {item : DiskItem} {above : List String} {entries : List (String × DiskItem)}
    (h : item.at? above = some (.directory entries)) (name : String) :
    item.at? (above ++ [name]) = child? name entries := by
  rw [at?_append, h, Option.bind_some, at?]
  cases child? name entries with
  | none => rfl
  | some below => exact at?_nil below

/-- Two items of one kind; only files and directories that are not locked may differ. -/
inductive Alike : DiskItem → DiskItem → Prop
  | file (old new : List UInt8) : Alike (.file old) (.file new)
  | link (target : String) : Alike (.link target) (.link target)
  | directory (old new : List (String × DiskItem)) : Alike (.directory old) (.directory new)
  | lockedFile (size : Nat) : Alike (.lockedFile size) (.lockedFile size)
  | lockedDirectory : Alike .lockedDirectory .lockedDirectory

theorem Alike.refl (item : DiskItem) : Alike item item := by
  cases item <;> constructor

theorem Alike.trans {a b c : DiskItem} (h : Alike a b) (h' : Alike b c) : Alike a c := by
  cases h <;> cases h' <;> constructor

theorem at?_put_self {item : DiskItem} {names : List String} (h : item.Writable names)
    (new : DiskItem) : (new.put item names).at? names = some new := by
  induction h with
  | file bytes => exact at?_nil new
  | vacant hfree => simp [put, at?, child?_putEntry]
  | inside hchild hw ih => simp [put, at?, child?_putEntry, hchild, ih]

theorem Writable.alike_file {item : DiskItem} {names : List String} (h : item.Writable names)
    (bytes : List UInt8) {old : DiskItem} (hold : item.at? names = some old) :
    Alike old (.file bytes) := by
  induction h with
  | file before =>
    cases hold
    exact .file before bytes
  | vacant hfree => simp [at?, hfree] at hold
  | inside hchild hw ih => exact ih (by simpa [at?, hchild] using hold)

/-- Putting something over a file, or under a free name, leaves everything where it was, and of its
kind. -/
theorem exists_alike_put {item : DiskItem} {names : List String} (h : item.Writable names)
    {placed : DiskItem} (hplaced : ∀ {old}, item.at? names = some old → Alike old placed)
    {place : List String} {old : DiskItem} (hold : item.at? place = some old) :
    ∃ new, (placed.put item names).at? place = some new ∧ Alike old new := by
  induction h generalizing place with
  | file before =>
    cases place with
    | nil =>
      cases hold
      exact ⟨_, at?_nil placed, hplaced (at?_nil _)⟩
    | cons p ps => cases hold
  | @vacant entries name hfree =>
    cases place with
    | nil =>
      cases hold
      exact ⟨_, rfl, .directory _ _⟩
    | cons p ps =>
      -- something stands at `place`, and nothing under the free name
      have hne : p ≠ name := by
        rintro rfl
        simp [at?, hfree] at hold
      refine ⟨old, ?_, .refl old⟩
      simpa [put, at?, child?_putEntry, hne] using hold
  | @inside entries name below names hchild hw ih =>
    cases place with
    | nil =>
      cases hold
      exact ⟨_, rfl, .directory _ _⟩
    | cons p ps =>
      by_cases hp : p = name
      · subst hp
        simp only [at?, hchild, Option.bind_some] at hold hplaced
        simpa [put, at?, child?_putEntry, hchild] using ih hplaced hold
      · refine ⟨old, ?_, .refl old⟩
        simpa [put, at?, child?_putEntry, hp] using hold

theorem Writable.of_at? {item below : DiskItem} {above names : List String}
    (h : item.at? above = some below) (hw : below.Writable names) :
    item.Writable (above ++ names) := by
  induction above generalizing item with
  | nil =>
    rw [at?_nil] at h
    cases h
    exact hw
  | cons n ns ih =>
    cases item with
    | file | link | lockedFile | lockedDirectory => cases h
    | directory entries =>
      obtain ⟨next, hchild, hnext⟩ := Option.bind_eq_some_iff.mp h
      exact .inside hchild (ih hnext)

end DiskItem

namespace Disk

open DiskItem

theorem writable_of_locateFrom {d : Disk} {follow : Bool} {links : Nat}
    {place parts names : List String} {slash : Bool}
    (h : d.locateFrom follow links place parts = .ok (.vacant names slash)) :
    d.top.Writable names := by
  fun_induction locateFrom d follow links place parts with
  | case2 _ _ _ _ _ _ _ ih => exact ih h
  | case3 _ _ _ _ _ _ _ _ ih => exact ih h
  | case6 _ _ _ _ _ _ _ _ _ _ _ _ ih => exact ih h
  | case7 _ _ _ _ _ _ _ _ _ _ _ ih => exact ih h
  | case8 links place part more entries hplace _ _ hchild _ =>
    cases h
    exact .of_at? hplace (.vacant hchild)
  | _ => cases h

/-! ## Extending -/

/-- Everything in a file system is in a later one, under the same names and of its kind. -/
structure Extends (d d' : Disk) : Prop where
  working : d'.working = d.working
  kept : ∀ {place old}, d.top.at? place = some old →
    ∃ new, d'.top.at? place = some new ∧ Alike old new

theorem Extends.refl (d : Disk) : d.Extends d where
  working := rfl
  kept hold := ⟨_, hold, .refl _⟩

theorem Extends.trans {d d' d'' : Disk} (h : d.Extends d') (h' : d'.Extends d'') :
    d.Extends d'' where
  working := h'.working.trans h.working
  kept hold := by
    obtain ⟨mid, hmid, halike⟩ := h.kept hold
    obtain ⟨new, hnew, halike'⟩ := h'.kept hmid
    exact ⟨new, hnew, halike.trans halike'⟩

theorem extends_put {d : Disk} {names : List String} (hw : d.top.Writable names) {item : DiskItem}
    (hitem : ∀ {old}, d.top.at? names = some old → Alike old item) : d.Extends (d.put names item) where
  working := rfl
  kept := exists_alike_put hw hitem

theorem locateFrom_of_locate {d : Disk} {follow : Bool} {path : String} {p : Place}
    (h : d.locate follow path = .ok p) :
    path.isEmpty = false ∧ d.locateFrom follow linkLimit
      (if PathName.isAbsolute path then [] else d.working) (PathName.parts path) = .ok p := by
  unfold locate at h
  split at h
  · cases h
  · rename_i hpath
    exact ⟨by simpa using hpath, h⟩

theorem Extends.exists_directory {d d' : Disk} (h : d.Extends d') {place : List String}
    {entries : List (String × DiskItem)} (hplace : d.top.at? place = some (.directory entries)) :
    ∃ entries', d'.top.at? place = some (.directory entries') := by
  obtain ⟨_, hplace', ⟨⟩⟩ := h.kept hplace
  exact ⟨_, hplace'⟩

theorem Extends.exists_child {d d' : Disk} (h : d.Extends d') {place : List String}
    {entries : List (String × DiskItem)} (hplace : d.top.at? place = some (.directory entries))
    {part : String} {old : DiskItem} (hchild : DiskItem.child? part entries = some old) :
    ∃ entries' new, d'.top.at? place = some (.directory entries') ∧
      DiskItem.child? part entries' = some new ∧ Alike old new := by
  obtain ⟨entries', hplace'⟩ := h.exists_directory hplace
  obtain ⟨new, hnew, halike⟩ := h.kept ((at?_snoc hplace part).trans hchild)
  exact ⟨entries', new, hplace', (at?_snoc hplace' part).symm.trans hnew, halike⟩

/-- What a path leads to, it leads to later, link by link; and a free name that it leads to may have
become a file. -/
theorem Extends.locateFrom {d d' : Disk} (h : d.Extends d') {follow : Bool} {links : Nat}
    {place parts names : List String} {p : Place}
    (hfound : d.locateFrom follow links place parts = .ok p)
    (hp : p = .found names ∨
      p = .vacant names false ∧ ∃ bytes, d'.top.at? names = some (.file bytes)) :
    d'.locateFrom follow links place parts = .ok (.found names) := by
  fun_induction Disk.locateFrom d follow links place parts with
  | case1 links place =>
    cases hfound
    obtain hp | ⟨hp, -⟩ := hp
    · rw [Disk.locateFrom, hp]
    · cases hp
  | case2 links place part more entries hplace hpart ih =>
    obtain ⟨_, hplace'⟩ := h.exists_directory hplace
    simp only [Disk.locateFrom, hplace', hpart, if_true, ih hfound]
  | case3 links place part more entries hplace hpart hup ih =>
    obtain ⟨_, hplace'⟩ := h.exists_directory hplace
    simp only [Disk.locateFrom, hplace', hpart, hup, Bool.false_eq_true, if_true, if_false, ih hfound]
  | case4 links place part more entries hplace hpart hup target hlink hstay =>
    cases hfound
    obtain hp | ⟨hp, -⟩ := hp
    · obtain ⟨_, _, hplace', hlink', ⟨⟩⟩ := h.exists_child hplace hlink
      simp only [Disk.locateFrom, hplace', hpart, hup, hlink', hstay, hp, Bool.false_eq_true,
        if_true, if_false]
    · cases hp
  | case6 place part more entries hplace hpart hup target hlink hgo links start ih =>
    obtain ⟨_, _, hplace', hlink', ⟨⟩⟩ := h.exists_child hplace hlink
    simp only [Disk.locateFrom, hplace', hpart, hup, hlink', hgo, Bool.false_eq_true, if_false]
    exact ih hfound
  | case7 links place part more entries hplace hpart hup item hother hchild ih =>
    obtain ⟨_, item', hplace', hchild', halike⟩ := h.exists_child hplace hchild
    cases halike with
    | file | directory | lockedFile | lockedDirectory =>
      simp only [Disk.locateFrom, hplace', hpart, hup, hchild', Bool.false_eq_true, if_false,
        ih hfound]
    | link target => exact absurd rfl (hother target)
  | case8 links place part more entries hplace hpart hup hchild hslash =>
    cases hfound
    obtain hp | ⟨hp, bytes, hbytes⟩ := hp
    · cases hp
    · -- the free name has become a file, so a step more is found there
      simp only [Place.vacant.injEq, Bool.not_eq_false', List.isEmpty_iff] at hp
      obtain ⟨rfl, rfl⟩ := hp
      obtain ⟨_, hplace'⟩ := h.exists_directory hplace
      rw [at?_snoc hplace'] at hbytes
      simp only [Disk.locateFrom, hplace', hpart, hup, hbytes, Bool.false_eq_true, if_false]
  | _ => cases hfound

theorem Extends.locate {d d' : Disk} (h : d.Extends d') {follow : Bool} {path : String}
    {names : List String} {p : Place} (hlocate : d.locate follow path = .ok p)
    (hp : p = .found names ∨
      p = .vacant names false ∧ ∃ bytes, d'.top.at? names = some (.file bytes)) :
    d'.locate follow path = .ok (.found names) := by
  obtain ⟨hpath, hfrom⟩ := locateFrom_of_locate hlocate
  rw [Disk.locate, hpath, h.working]
  exact h.locateFrom hfrom hp

theorem find_ok_iff {d : Disk} {path : String} {names : List String} {item : DiskItem} :
    d.find path = .ok (names, item) ↔
      d.locate true path = .ok (.found names) ∧ d.top.at? names = some item := by
  cases hlocate : d.locate true path with
  | error e => simp [find, hlocate, bind, Except.bind]
  | ok p =>
    cases p with
    | vacant free slash => simp [find, hlocate, bind, Except.bind, throw, throwThe, MonadExceptOf.throw]
    | found place =>
      cases hat : d.top.at? place with
      | none =>
        simp only [find, hlocate, hat, bind, Except.bind, throw, throwThe, MonadExceptOf.throw,
          reduceCtorEq, Except.ok.injEq, Place.found.injEq, false_iff, not_and]
        rintro rfl
        simp [hat]
      | some below =>
        simp only [find, hlocate, hat, bind, Except.bind, pure, Except.pure, Except.ok.injEq,
          Prod.mk.injEq, Place.found.injEq]
        refine and_congr_right fun hnames => ?_
        rw [← hnames, hat, Option.some.injEq]

theorem put_of_add {d d' : Disk} {names : List String} {item : DiskItem}
    (h : d.add names item = .ok d') : d' = d.put names item := by
  unfold add at h
  split at h
  · cases h
  · cases h
    rfl

/-- What writing does: it puts the file where the path leads. -/
theorem put_of_write {d d' : Disk} {path : String} {bytes : List UInt8}
    (h : d.write path bytes = .ok d') :
    ∃ names p, d.locate true path = .ok p ∧ (p = .found names ∨ p = .vacant names false) ∧
      d.top.Writable names ∧ d' = d.put names (.file bytes) := by
  cases hlocate : d.locate true path with
  | error e =>
    rw [write, hlocate] at h
    cases h
  | ok p =>
    rw [write, hlocate] at h
    simp only [bind, Except.bind] at h
    split at h
    · rename_i names
      have hw := writable_of_locateFrom (locateFrom_of_locate hlocate).2
      exact ⟨names, _, rfl, .inr rfl, hw, put_of_add h⟩
    · cases h
    · rename_i names
      split at h
      · rename_i hitem
        split at h
        · cases h
        · cases h
          have hw := Writable.of_at? hitem (.file _)
          rw [List.append_nil] at hw
          exact ⟨names, _, rfl, .inl rfl, hw, rfl⟩
      · cases h
      · cases h

theorem locate_of_write {d : Disk} {path : String} {names : List String} {p : Place}
    (hlocate : d.locate true path = .ok p) (hp : p = .found names ∨ p = .vacant names false)
    (hw : d.top.Writable names) (bytes : List UInt8) :
    (d.put names (.file bytes)).locate true path = .ok (.found names) :=
  (extends_put hw (hw.alike_file bytes)).locate hlocate
    (hp.imp_right fun hvacant => ⟨hvacant, bytes, at?_put_self hw _⟩)

theorem read_of_write {d d' : Disk} {path : String} {bytes : List UInt8}
    (h : d.write path bytes = .ok d') : d'.read path = .ok bytes := by
  obtain ⟨names, p, hlocate, hp, hw, rfl⟩ := put_of_write h
  rw [read, find_ok_iff.mpr ⟨locate_of_write hlocate hp hw bytes, at?_put_self hw _⟩]
  rfl

theorem readText_of_writeText {d d' : Disk} {path text : String}
    (h : d.writeText path text = .ok d') : d'.readText path = .ok text := by
  rw [readText, read_of_write h]
  simp only [Text.Utf8.decode?_encode]

end Disk

end CodeAtlas
