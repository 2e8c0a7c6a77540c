import CodeAtlas.Proofs.Disk.Writing
import CodeAtlas.Proofs.Keyed
import CodeAtlas.Proofs.Text.ByteOrder
import CodeAtlas.Scan.Selection
import Mathlib

/-!
What a scan selects.  The walk leaves out whole subtrees on its way down; `Selection.Selected` says
of the names of one file, without a walk, that every entry on the way to it is admitted.  On a readable
tree without links both are the same, and sorting by path keeps the files apart:

    names ∈ what the walk gives  ↔  Selected names                       (mem_ofEntry_iff)
    the files of a scan = the selected ones, each once, in byte order    (collect_selects)
-/

namespace CodeAtlas

/-! ## Readable trees without links -/

namespace DiskItem

/-- A tree without links and locked items.  The names in a directory are different, and no name holds
a slash. -/
inductive Plain : DiskItem → Prop where
  | file (bytes : List UInt8) : Plain (.file bytes)
  | directory {entries : List (String × DiskItem)} (distinct : (entries.map (·.1)).Nodup)
      (slashless : ∀ e ∈ entries, '/' ∉ e.1.toList) (below : ∀ e ∈ entries, Plain e.2) :
      Plain (.directory entries)

theorem count_le_countAll {entries : List (String × DiskItem)} {e : String × DiskItem}
    (h : e ∈ entries) : e.2.count ≤ countAll entries := by
  induction entries with
  | nil => cases h
  | cons first rest ih =>
    obtain ⟨name, item⟩ := first
    simp only [countAll]
    rcases List.mem_cons.mp h with rfl | hrest
    · exact Nat.le_add_right _ _
    · exact (ih hrest).trans (Nat.le_add_left _ _)

theorem mem_of_child? {name : String} {entries : List (String × DiskItem)} {item : DiskItem}
    (h : child? name entries = some item) : (name, item) ∈ entries := by
  obtain ⟨⟨name', item'⟩, hfind, rfl⟩ := Option.map_eq_some_iff.mp h
  have hname : name' = name := by simpa using List.find?_some hfind
  rw [← hname]
  exact List.mem_of_find?_eq_some hfind

theorem child?_iff {entries : List (String × DiskItem)} (distinct : (entries.map (·.1)).Nodup)
    (name : String) (item : DiskItem) :
    child? name entries = some item ↔ (name, item) ∈ entries := by
  refine ⟨mem_of_child?, fun h => ?_⟩
  have hfind := (find?_key_iff Prod.fst distinct name (name, item)).mpr ⟨h, rfl⟩
  unfold child?
  rw [hfind]
  rfl

theorem count_le_of_at? {item below : DiskItem} {names : List String}
    (h : item.at? names = some below) : below.count ≤ item.count := by
  induction names generalizing item with
  | nil =>
    rw [at?_nil] at h
    cases h
    exact le_rfl
  | cons name names ih =>
    cases item with
    | file | link | lockedFile | lockedDirectory => cases h
    | directory entries =>
      obtain ⟨child, hchild, hbelow⟩ := Option.bind_eq_some_iff.mp h
      have hentry := count_le_countAll (mem_of_child? hchild)
      have hrest := ih hbelow
      simp only [count] at hentry ⊢
      omega

theorem Plain.slashless_of_at? {item below : DiskItem} (hplain : item.Plain) {names : List String}
    (h : item.at? names = some below) : ∀ name ∈ names, '/' ∉ name.toList := by
  induction names generalizing item with
  | nil => simp
  | cons name names ih =>
    cases hplain with
    | file bytes => cases h
    | directory distinct slashless hbelow =>
      obtain ⟨child, hchild, hrest⟩ := Option.bind_eq_some_iff.mp h
      have hmem := mem_of_child? hchild
      intro n hn
      rcases List.mem_cons.mp hn with rfl | hn
      · exact slashless _ hmem
      · exact ih (hbelow _ hmem) hrest n hn

end DiskItem

/-- Names without slashes can be read off the path that they make. -/
theorem Text.join_slash_inj {m n : List String} (hm : m ≠ []) (hn : n ≠ [])
    (hmslash : ∀ name ∈ m, '/' ∉ name.toList) (hnslash : ∀ name ∈ n, '/' ∉ name.toList)
    (h : join "/" m = join "/" n) : m = n := by
  have hsplit : ∀ names : List String, names ≠ [] → (∀ name ∈ names, '/' ∉ name.toList) →
      (join "/" names).toList.splitOn '/' = names.map String.toList := by
    intro names hne hslash
    unfold join
    rw [String.toList_intercalate]
    refine List.splitOn_intercalate '/' ?_ (by simpa using hne)
    intro l hl
    obtain ⟨name, hname, rfl⟩ := List.mem_map.mp hl
    exact hslash name hname
  have hmap : m.map String.toList = n.map String.toList := by
    rw [← hsplit m hm hmslash, ← hsplit n hn hnslash, h]
  exact List.map_injective_iff.mpr (fun _ _ => String.toList_injective) hmap

namespace Selection

/-! ## Selected files -/

/-- An entry of the directory at `before` is not passed over: it is not hidden, unless hidden entries
count, its path below the root is not matched, and a directory has no excluded name. -/
structure Admits (c : Config) (ignore : String → Bool) (before : List String) (name : String)
    (item : DiskItem) : Prop where
  shown : c.includeHidden = true ∨ isHidden name = false
  unmatched : ignore (Text.join "/" (before ++ [name])) = false
  included : ∀ entries, item = .directory entries → name ∉ c.excludedDirs

/-- Names lead from the item at `before` to a file that is not too large, and every entry on the way,
the file included and the item itself not, is admitted. -/
structure Selected (c : Config) (ignore : String → Bool) (before : List String) (item : DiskItem)
    (names : List String) : Prop where
  file : ∃ bytes, item.at? names = some (.file bytes) ∧ bytes.length ≤ c.maxFileSize
  way : ∀ above name entry, above ++ [name] <+: names → item.at? (above ++ [name]) = some entry →
    Admits c ignore (before ++ above) name entry

variable {c : Config} {ignore : String → Bool}

theorem selected_file_iff (before : List String) (bytes : List UInt8) (names : List String) :
    Selected c ignore before (.file bytes) names ↔
      names = [] ∧ bytes.length ≤ c.maxFileSize := by
  constructor
  · rintro ⟨⟨bytes', hat, hsize⟩, -⟩
    cases names with
    | nil =>
      cases hat
      exact ⟨rfl, hsize⟩
    | cons name names => cases hat
  · rintro ⟨rfl, hsize⟩
    refine ⟨⟨bytes, rfl, hsize⟩, fun above name entry hway _ => ?_⟩
    simp at hway

theorem Selected.ne_nil {before : List String} {entries : List (String × DiskItem)}
    {names : List String} (h : Selected c ignore before (.directory entries) names) :
    names ≠ [] := by
  rintro rfl
  obtain ⟨bytes, hat, -⟩ := h.file
  cases hat

/-- The condition on a way, one name at a time. -/
theorem selected_cons_iff {entries : List (String × DiskItem)}
    (distinct : (entries.map (·.1)).Nodup) (before : List String) (name : String)
    (names : List String) :
    Selected c ignore before (.directory entries) (name :: names) ↔
      ∃ item, (name, item) ∈ entries ∧ Admits c ignore before name item ∧
        Selected c ignore (before ++ [name]) item names := by
  have hat : ∀ {item : DiskItem} (rest : List String), (name, item) ∈ entries →
      (DiskItem.directory entries).at? (name :: rest) = item.at? rest := by
    intro item rest hmem
    show (DiskItem.child? name entries).bind _ = _
    rw [(DiskItem.child?_iff distinct name item).mpr hmem]
    rfl
  constructor
  · intro h
    obtain ⟨bytes, hfile, hsize⟩ := h.file
    obtain ⟨item, hchild, hrest⟩ := Option.bind_eq_some_iff.mp hfile
    have hmem := DiskItem.mem_of_child? hchild
    refine ⟨item, hmem, ?_, ⟨bytes, hrest, hsize⟩, fun above last entry hway hentry => ?_⟩
    · have hfirst := h.way [] name item (by simp) ((hat [] hmem).trans item.at?_nil)
      rwa [List.append_nil] at hfirst
    · have hbelow := h.way (name :: above) last entry (by simpa using hway)
        ((hat _ hmem).trans hentry)
      rwa [List.append_cons] at hbelow
  · rintro ⟨item, hmem, hfirst, hselected⟩
    obtain ⟨bytes, hfile, hsize⟩ := hselected.file
    refine ⟨⟨bytes, (hat names hmem).trans hfile, hsize⟩, fun above last entry hway hentry => ?_⟩
    cases above with
    | nil =>
      obtain ⟨rfl, -⟩ : last = name ∧ _ := List.cons_prefix_cons.mp hway
      obtain rfl : item = entry :=
        Option.some.inj (item.at?_nil.symm.trans ((hat [] hmem).symm.trans hentry))
      rwa [List.append_nil]
    | cons n above =>
      obtain ⟨rfl, hrest⟩ : n = name ∧ above ++ [last] <+: names := List.cons_prefix_cons.mp hway
      have hbelow := hselected.way above last entry hrest ((hat _ hmem).symm.trans hentry)
      rwa [List.append_cons]

/-! ## The walk -/

section Walk

variable {d : Disk} {follow : Bool} {fuel : Nat}

theorem ofItem_file {bytes : List UInt8} (hfuel : (DiskItem.file bytes).count ≤ fuel)
    (around : List (List String)) (place : List String) :
    Listing.ofItem d follow fuel around place (.file bytes) = .file bytes.length := by
  cases fuel with
  | zero => simp [DiskItem.count] at hfuel
  | succ fuel => rfl

theorem exists_ofItem_directory {entries : List (String × DiskItem)}
    (hfuel : (DiskItem.directory entries).count ≤ fuel) (d : Disk) (follow : Bool)
    (around : List (List String)) (place : List String) :
    ∃ k, (∀ e ∈ entries, e.2.count ≤ k) ∧
      Listing.ofItem d follow fuel around place (.directory entries) = .folder (entries.map fun e =>
        (e.1, Listing.ofItem d follow k (place :: around) (place ++ [e.1]) e.2)) := by
  cases fuel with
  | zero => simp [DiskItem.count] at hfuel
  | succ k =>
    refine ⟨k, fun e he => ?_, rfl⟩
    have hentry := DiskItem.count_le_countAll he
    simp only [DiskItem.count] at hfuel
    omega

theorem prunes_eq_false_iff {item : DiskItem} (hplain : item.Plain) (hfuel : item.count ≤ fuel)
    (around : List (List String)) (place before : List String) (name : String) :
    prunes c ignore (before ++ [name]) (Listing.ofItem d follow fuel around place item) = false ↔
      Admits c ignore before name item := by
  cases hplain with
  | file bytes =>
    rw [ofItem_file hfuel]
    simp only [prunes, List.getLast?_concat, Option.getD_some, Bool.or_false,
      Bool.or_eq_false_iff, Bool.and_eq_false_iff, Bool.not_eq_false']
    exact ⟨fun h => ⟨h.1, h.2, nofun⟩, fun h => ⟨h.shown, h.unmatched⟩⟩
  | directory distinct slashless below =>
    obtain ⟨k, -, hfolder⟩ := exists_ofItem_directory hfuel d follow around place
    rw [hfolder]
    simp only [prunes, List.getLast?_concat, Option.getD_some, Bool.or_eq_false_iff,
      Bool.and_eq_false_iff, Bool.not_eq_false', Config.isExcludedDir, List.contains_eq_mem,
      decide_eq_false_iff_not]
    exact ⟨fun h => ⟨h.1.1, h.2, fun _ _ => h.1.2⟩,
      fun h => ⟨⟨h.shown, h.included _ rfl⟩, h.unmatched⟩⟩

/-- What the walk keeps of an entry. -/
def kept (c : Config) (ignore : String → Bool) (before : List String) (e : String × Listing) :
    List (List String) :=
  if prunes c ignore (before ++ [e.1]) e.2 then [] else ofEntry c ignore (before ++ [e.1]) e.2

theorem ofEntries_eq_flatMap (before : List String) (entries : List (String × Listing)) :
    ofEntries c ignore before entries = entries.flatMap (kept c ignore before) := by
  induction entries with
  | nil => rfl
  | cons e rest ih =>
    rw [List.flatMap_cons, ← ih]
    rfl

theorem mem_kept {before names : List String} {e : String × Listing} :
    names ∈ kept c ignore before e ↔ prunes c ignore (before ++ [e.1]) e.2 = false ∧
      names ∈ ofEntry c ignore (before ++ [e.1]) e.2 := by
  unfold kept
  split
  · rename_i hprunes
    simp [hprunes]
  · rename_i hprunes
    simp [hprunes]

theorem mem_ofEntry_iff {item : DiskItem} (hplain : item.Plain) (hfuel : item.count ≤ fuel)
    (around : List (List String)) (place before names : List String) :
    names ∈ ofEntry c ignore before (Listing.ofItem d follow fuel around place item) ↔
      ∃ rest, names = before ++ rest ∧ Selected c ignore before item rest := by
  induction hplain generalizing fuel around place before names with
  | file bytes =>
    rw [ofItem_file hfuel]
    simp only [ofEntry, selected_file_iff]
    by_cases hlarge : c.maxFileSize < bytes.length
    · simp [hlarge]
    · simp [hlarge, Nat.le_of_not_lt hlarge]
  | @directory entries distinct slashless below ih =>
    obtain ⟨k, hk, hfolder⟩ := exists_ofItem_directory hfuel d follow around place
    rw [hfolder]
    simp only [ofEntry, ofEntries_eq_flatMap, List.flatMap_map, List.mem_flatMap, mem_kept]
    constructor
    · rintro ⟨e, he, hkept, hnames⟩
      have hadmits := (prunes_eq_false_iff (below e he) (hk e he) _ _ _ _).mp hkept
      obtain ⟨rest, rfl, hselected⟩ := (ih e he (hk e he) _ _ _ _).mp hnames
      refine ⟨e.1 :: rest, by simp, ?_⟩
      exact (selected_cons_iff distinct before e.1 rest).mpr ⟨e.2, he, hadmits, hselected⟩
    · rintro ⟨rest, rfl, hselected⟩
      cases rest with
      | nil => exact absurd rfl hselected.ne_nil
      | cons name rest =>
        obtain ⟨item, he, hadmits, hrest⟩ :=
          (selected_cons_iff distinct before name rest).mp hselected
        refine ⟨(name, item), he, ?_, ?_⟩
        · exact (prunes_eq_false_iff (below _ he) (hk _ he) _ _ _ _).mpr hadmits
        · exact (ih _ he (hk _ he) _ _ _ _).mpr ⟨rest, by simp, hrest⟩

/-- The walk comes to every file once. -/
theorem nodup_ofEntry {item : DiskItem} (hplain : item.Plain) (hfuel : item.count ≤ fuel)
    (around : List (List String)) (place before : List String) :
    (ofEntry c ignore before (Listing.ofItem d follow fuel around place item)).Nodup := by
  induction hplain generalizing fuel around place before with
  | file bytes =>
    rw [ofItem_file hfuel]
    unfold ofEntry
    split <;> simp
  | @directory entries distinct slashless below ih =>
    obtain ⟨k, hk, hfolder⟩ := exists_ofItem_directory hfuel d follow around place
    rw [hfolder]
    simp only [ofEntry, ofEntries_eq_flatMap, List.flatMap_map]
    refine List.nodup_flatMap.mpr ⟨fun e he => ?_, ?_⟩
    · unfold kept
      split
      · exact List.nodup_nil
      · exact ih e he (hk e he) _ _ _
    · -- the names below two entries differ after `before`
      refine (List.pairwise_map.mp distinct).imp_of_mem fun {e e'} he he' hne => ?_
      intro names hmem hmem'
      obtain ⟨rest, hrest, -⟩ :=
        (mem_ofEntry_iff (below e he) (hk e he) _ _ _ _).mp (mem_kept.mp hmem).2
      obtain ⟨rest', hrest', -⟩ :=
        (mem_ofEntry_iff (below e' he') (hk e' he') _ _ _ _).mp (mem_kept.mp hmem').2
      have hsame : e.1 = e'.1 ∧ rest = rest' := by simpa using hrest.symm.trans hrest'
      exact hne hsame.1

end Walk

/-! ## Scans -/

theorem exists_listing {d : Disk} {root : String} {place : List String}
    {entries : List (String × DiskItem)} (h : d.find root = .ok (place, .directory entries))
    (follow : Bool) :
    ∃ fuel listed, (DiskItem.directory entries).count ≤ fuel ∧
      d.listing follow root = .ok listed ∧
      Listing.ofItem d follow fuel [] place (.directory entries) = .folder listed := by
  have hcount := DiskItem.count_le_of_at? (Disk.find_ok_iff.mp h).2
  have hfuel : d.top.count ≤ (d.top.count + 1) * (d.top.count + 1) :=
    (Nat.le_succ _).trans (Nat.le_mul_self _)
  refine ⟨_, _, (hcount.trans hfuel).trans (Nat.le_succ _), ?_, rfl⟩
  unfold Disk.listing
  rw [h]
  rfl

theorem Selected.join_inj {entries : List (String × DiskItem)}
    (hplain : (DiskItem.directory entries).Plain) {m n : List String}
    (hm : Selected c ignore [] (.directory entries) m)
    (hn : Selected c ignore [] (.directory entries) n)
    (h : Text.join "/" m = Text.join "/" n) : m = n := by
  obtain ⟨_, hfile, -⟩ := hm.file
  obtain ⟨_, hfile', -⟩ := hn.file
  exact Text.join_slash_inj hm.ne_nil hn.ne_nil (hplain.slashless_of_at? hfile)
    (hplain.slashless_of_at? hfile') h

end Selection

/-- The file that some names lead to from a root. -/
def FoundFile.below (root : String) (names : List String) : FoundFile :=
  ⟨PathName.joined root (Text.join "/" names), Text.join "/" names⟩

namespace Selection

variable {c : Config} {ignore : String → Bool}

/-- Sorting the paths is sorting the names by the path that they make. -/
theorem collect_of_listing {d : Disk} {root : String} {listed : List (String × Listing)}
    (h : d.listing c.followLinks root = .ok listed) :
    collect d c ignore root = .ok (((ofEntries c ignore [] listed).mergeSort
      fun m n => Text.lexLe (Text.join "/" m) (Text.join "/" n)).map (FoundFile.below root)) := by
  have hsort : ((ofEntries c ignore [] listed).mergeSort
      fun m n => Text.lexLe (Text.join "/" m) (Text.join "/" n)).map (Text.join "/") =
      relativePaths c ignore listed :=
    List.map_mergeSort fun _ _ _ _ => rfl
  unfold collect
  rw [h]
  dsimp only
  rw [← hsort, List.map_map]
  rfl

/-- **A scan selects what its options admit.**  Below a root that leads to a readable directory without
links, whatever the root is called and whatever the ignore rule is, the files of a scan are those that are
not too large and to which every entry on the way is admitted, by its own name and its own path below
the root.  Each of them appears once, and their paths are in strict byte order. -/
theorem collect_selects (d : Disk) (c : Config) (ignore : String → Bool) {root : String}
    {place : List String} {entries : List (String × DiskItem)}
    (hroot : d.find root = .ok (place, .directory entries))
    (hplain : (DiskItem.directory entries).Plain) :
    ∃ found : List (List String),
      collect d c ignore root = .ok (found.map (FoundFile.below root)) ∧
      found.Nodup ∧
      (∀ names, names ∈ found ↔ Selected c ignore [] (.directory entries) names) ∧
      (found.map (FoundFile.below root)).Pairwise
        (fun f g => Text.Utf8.encode f.relative < Text.Utf8.encode g.relative) := by
  obtain ⟨fuel, listed, hfuel, hlisting, hfolder⟩ := exists_listing hroot c.followLinks
  have hwalk : ofEntries c ignore [] listed = ofEntry c ignore []
      (Listing.ofItem d c.followLinks fuel [] place (.directory entries)) := by
    rw [hfolder, ofEntry]
  have hmem : ∀ names, names ∈ ofEntries c ignore [] listed ↔
      Selected c ignore [] (.directory entries) names := by
    intro names
    rw [hwalk, mem_ofEntry_iff hplain hfuel]
    simp
  have hnodup : (ofEntries c ignore [] listed).Nodup := by
    rw [hwalk]
    exact nodup_ofEntry hplain hfuel _ _ _
  have hpaths : ((ofEntries c ignore [] listed).map (Text.join "/")).Nodup := by
    refine hnodup.map_on fun m hm n hn hmn => ?_
    exact Selected.join_inj hplain ((hmem m).mp hm) ((hmem n).mp hn) hmn
  -- the walk in the order of the paths
  have hperm := List.mergeSort_perm (ofEntries c ignore [] listed)
    (fun m n => Text.lexLe (Text.join "/" m) (Text.join "/" n))
  refine ⟨(ofEntries c ignore [] listed).mergeSort
    (fun m n => Text.lexLe (Text.join "/" m) (Text.join "/" n)), ?_, ?_, ?_, ?_⟩
  · exact collect_of_listing hlisting
  · exact hperm.nodup_iff.mpr hnodup
  · intro names
    rw [hperm.mem_iff, hmem]
  · refine List.pairwise_map.mpr ((sort_keys_lt (Text.join "/") hpaths).imp fun hlt => ?_)
    exact (Text.Utf8.encode_lt_iff _ _).mpr hlt

-- a directory before another with a longer name, whose path comes first
example : collect { working := [], top := .directory [("a", .directory [("x", .file [])]),
      ("a-b", .directory [("x", .file [])])] } {} (fun _ => false) "/" =
    .ok [⟨"/a-b/x", "a-b/x"⟩, ⟨"/a/x", "a/x"⟩] := by
  cbv

/-- Two directories, a hidden file and a directory with an excluded name. -/
def diverseEntries : List (String × DiskItem) :=
  [("a", .directory [("x", .file [])]), ("a-b", .directory [("x", .file [65])]),
    (".h", .file []), ("build", .directory [("y", .file [])])]

def diverseDisk : Disk where
  top := .directory [(".git", .directory diverseEntries)]
  working := []

theorem collect_selects_diverse :
    diverseDisk.find "/.git" = .ok ([".git"], .directory diverseEntries) ∧
    (DiskItem.directory diverseEntries).Plain ∧
    ∃ found : List (List String),
      collect diverseDisk {} (fun _ => false) "/.git" =
        .ok (found.map (FoundFile.below "/.git")) ∧
      ["a", "x"] ∈ found ∧ [".h"] ∉ found := by
  have hroot : diverseDisk.find "/.git" = .ok ([".git"], .directory diverseEntries) := by
    cbv
  have hplain : (DiskItem.directory diverseEntries).Plain := by
    have hleaf : ∀ (name : String) (bytes : List UInt8), '/' ∉ name.toList →
        (DiskItem.directory [(name, .file bytes)]).Plain := by
      intro name bytes hname
      refine .directory (by simp) (by simpa using hname) ?_
      simpa using DiskItem.Plain.file bytes
    refine .directory (by decide) (by decide) ?_
    simp [diverseEntries, hleaf, DiskItem.Plain.file]
  obtain ⟨found, hfound, -, hmem, -⟩ := collect_selects diverseDisk {} (fun _ => false) hroot hplain
  refine ⟨hroot, hplain, found, hfound, ?_, ?_⟩
  · refine (hmem _).mpr ((selected_cons_iff (by decide) [] "a" ["x"]).mpr ?_)
    refine ⟨.directory [("x", .file [])], by simp [diverseEntries], ?_, ?_⟩
    · exact ⟨by decide, rfl, fun _ _ => by decide⟩
    · refine (selected_cons_iff (by decide) ["a"] "x" []).mpr ⟨.file [], by simp, ?_, ?_⟩
      · exact ⟨by decide, rfl, fun _ _ => by decide⟩
      · exact (selected_file_iff _ _ _).mpr ⟨rfl, Nat.zero_le _⟩
  · intro hhidden
    have hshown := (((hmem _).mp hhidden).way [] ".h" (.file []) (by simp) rfl).shown
    exact absurd hshown (by decide)

end Selection

end CodeAtlas
