import CodeAtlas.Proofs.Forest.Assembly
import CodeAtlas.Proofs.Scan.Counters

/-!
The rows of a file and the forest behind them.  A row has no id, so the owner that it names means
something only by position: the rows of a file have to stand in the order in which the entities of
its forest are numbered.  A forest is `Numbered` if its ids are the positions of its preorder and every
entity names its owner; assembling gives such forests (`numbered_assemble`), and flattening keeps
their order (`forall₂_ofEntities`).

    rows  --the owners, by position-->  forest of rows          (RowTree.rebuild)

`rebuild` knows nothing but the rows, and gives back the forest they were made of
(`rebuild_ofEntities`).
-/

namespace CodeAtlas

/-! ## Numbered forests -/

namespace Entity

mutual

/-- The entities at and below an entity have the ids from `n` on, parents first, and each names its
owner. -/
def Numbered (owner : Option EntityId) (n : Nat) : Entity → Prop
  | .entity f cs =>
    f.id = .ofIndex n ∧ f.parent = owner ∧ NumberedAll (some (.ofIndex n)) (n + 1) cs

def NumberedAll (owner : Option EntityId) (n : Nat) : List Entity → Prop
  | [] => True
  | e :: es => Numbered owner n e ∧ NumberedAll owner (n + e.size) es

end

/-- Every position of a listing has the id of its number, from `n` on. -/
def IdsFrom (n : Nat) (es : List Entity) : Prop :=
  ∀ (i : Nat) (e : Entity), (preorderAll es)[i]? = some e → e.facts.id = .ofIndex (n + i)

theorem IdsFrom.children {n : Nat} {e : Entity} {es : List Entity} (h : IdsFrom n (e :: es)) :
    IdsFrom (n + 1) e.children := by
  intro i x hx
  have hlt := (List.getElem?_eq_some_iff.mp hx).1
  have hpos : (preorderAll (e :: es))[i + 1]? = some x := by
    rw [preorderAll, preorder_eq, List.cons_append, List.getElem?_cons_succ,
      List.getElem?_append_left hlt]
    exact hx
  rw [h (i + 1) x hpos]
  congr 1
  omega

theorem IdsFrom.rest {n : Nat} {e : Entity} {es : List Entity} (h : IdsFrom n (e :: es)) :
    IdsFrom (n + e.size) es := by
  intro i x hx
  have hpos : (preorderAll (e :: es))[e.size + i]? = some x := by
    rw [preorderAll, ← length_preorder e, List.getElem?_append_right (Nat.le_add_right _ _),
      Nat.add_sub_cancel_left]
    exact hx
  rw [h (e.size + i) x hpos]
  congr 1
  omega

/-- A forest with its positions as ids, in which every child names the entity it belongs to, is
numbered. -/
theorem numberedAll_of_ids {owner : Option EntityId} {n : Nat} {es : List Entity}
    (hids : IdsFrom n es) (hroots : ∀ r ∈ es, r.facts.parent = owner)
    (hchildren : ∀ p ∈ preorderAll es, ∀ e ∈ p.children, e.facts.parent = some p.facts.id) :
    NumberedAll owner n es := by
  match es with
  | [] => trivial
  | .entity f cs :: es =>
    have hid : f.id = .ofIndex n := hids 0 (.entity f cs) rfl
    have hself : Entity.entity f cs ∈ preorderAll (.entity f cs :: es) :=
      (sublist_preorderAll _).subset List.mem_cons_self
    have hbelow : ∀ p ∈ preorderAll cs, p ∈ preorderAll (.entity f cs :: es) :=
      fun p hp => (preorderAll_children_sublist hself).subset hp
    have hrest : ∀ p ∈ preorderAll es, p ∈ preorderAll (.entity f cs :: es) := by
      intro p hp
      rw [preorderAll]
      exact List.mem_append_right _ hp
    refine ⟨⟨hid, hroots _ List.mem_cons_self, ?_⟩, ?_⟩
    · refine numberedAll_of_ids hids.children (fun r hr => ?_) fun p hp => hchildren p (hbelow p hp)
      rw [hchildren _ hself r hr]
      exact congrArg some hid
    · exact numberedAll_of_ids hids.rest (fun r hr => hroots r (List.mem_cons_of_mem _ hr))
        fun p hp => hchildren p (hrest p hp)

end Entity

namespace Forest

open Entity

theorem numbered_assemble (cs : List Candidate) : NumberedAll none 0 (assemble cs) := by
  have hparents := parentsNamed_nest (survivors cs)
  refine numberedAll_of_ids (fun i e he => ?_) hparents.root hparents.child
  rw [← walk_eq_preorder] at he
  rw [Nat.zero_add]
  exact id_of_walk he

/-- An entity that names an owner is a child of the entity at the position it names, which stands
before it. -/
theorem owner_of_parent {cs : List Candidate} (hsize : (walk (assemble cs)).length < 2 ^ 32)
    {i : Nat} {e : Entity} (he : (walk (assemble cs))[i]? = some e) {owner : EntityId}
    (howner : e.facts.parent = some owner) :
    owner.number.toNat < i ∧
      ∃ p, (walk (assemble cs))[owner.number.toNat]? = some p ∧ e ∈ p.children := by
  have hparents := parentsNamed_nest (survivors cs)
  have hlt := (List.getElem?_eq_some_iff.mp he).1
  rcases isRoot_or_owns (by rwa [length_walk_assemble] at hlt) with ⟨e', he', hroot⟩ | ⟨j, hj⟩
  · obtain rfl := Option.some.inj (he.symm.trans he')
    rw [hparents.root e hroot] at howner
    cases howner
  · have hbefore := (innermost_of_owns hj).before
    obtain ⟨p, e', hp, he', hchild⟩ := hj
    obtain rfl := Option.some.inj (he.symm.trans he')
    have hmem : p ∈ preorderAll (assemble cs) := by
      rw [← walk_eq_preorder]
      exact List.mem_of_getElem? hp
    rw [hparents.child p hmem e hchild, id_of_walk hp] at howner
    obtain rfl := Option.some.inj howner
    rw [toNat_ofIndex (by omega)]
    exact ⟨hbefore, p, hp, hchild⟩

end Forest

/-! ## Rows in the order of the entities -/

namespace FlatRecord

/-- The row of an entity, up to the qualified name. -/
def Describes (row : FlatRecord) (file language : String) (e : Entity) : Prop :=
  row = ofFacts file language row.qualifiedName e.facts

mutual

theorem forall₂_ofEntity (file language : String) (outer : Option String) (e : Entity) :
    List.Forall₂ (fun row e => row.Describes file language e) (ofEntity file language outer e)
      e.preorder := by
  cases e with
  | entity f cs => exact .cons rfl (forall₂_ofEntities file language _ cs)

theorem forall₂_ofEntities (file language : String) (outer : Option String) (es : List Entity) :
    List.Forall₂ (fun row e => row.Describes file language e) (ofEntities file language outer es)
      (Entity.preorderAll es) := by
  cases es with
  | nil => exact .nil
  | cons e es =>
    exact List.rel_append (forall₂_ofEntity file language outer e)
      (forall₂_ofEntities file language outer es)

end

end FlatRecord

/-! ## The forest of rows -/

/-- A row with the rows of what is declared inside it. -/
inductive RowTree where
  | node (row : FlatRecord) (children : List RowTree)

namespace RowTree

def row : RowTree → FlatRecord
  | .node row _ => row

mutual

def ofEntity (file language : String) (outer : Option String) : Entity → RowTree
  | .entity f cs =>
    let q := FlatRecord.qualify outer f.name
    .node (.ofFacts file language q f) (ofEntities file language (some q) cs)

def ofEntities (file language : String) (outer : Option String) : List Entity → List RowTree
  | [] => []
  | e :: es => ofEntity file language outer e :: ofEntities file language outer es

end

/-- Puts a row at a position in front of the trees that follow it: those that name the position
become its children. -/
def attach (row : FlatRecord × Nat) (following : List RowTree) : List RowTree :=
  let named (t : RowTree) : Bool := t.row.parent == some (.ofIndex row.2)
  .node row.1 (following.filter named) :: following.filter (fun t => !named t)

/-- The forest of rows, by the owners that they name and nothing else. -/
def rebuild (rows : List FlatRecord) : List RowTree :=
  rows.zipIdx.foldr attach []

/-- An owner that is not one of the positions from `n` on. -/
def Earlier (n : Nat) (owner : Option EntityId) : Prop :=
  ∀ i, n ≤ i → i < 2 ^ 32 → owner ≠ some (.ofIndex i)

theorem Earlier.mono {m n : Nat} (hmn : m ≤ n) {owner : Option EntityId} (h : Earlier m owner) :
    Earlier n owner := by
  intro i hi
  exact h i (Nat.le_trans hmn hi)

theorem earlier_ofIndex {n : Nat} (hn : n < 2 ^ 32) : Earlier (n + 1) (some (.ofIndex n)) := by
  intro i hi hlt heq
  have := Forest.ofIndex_inj hn hlt (Option.some.inj heq)
  omega

theorem parent_of_mem_ofEntities {file language : String} {outer : Option String}
    {owner : Option EntityId} {n : Nat} {es : List Entity} (h : Entity.NumberedAll owner n es) :
    ∀ t ∈ ofEntities file language outer es, t.row.parent = owner := by
  induction es generalizing n with
  | nil => simp [ofEntities]
  | cons e es ih =>
    obtain ⟨he, hes⟩ := h
    intro t ht
    rcases List.mem_cons.mp ht with rfl | ht
    · cases e with
      | entity f cs => exact he.2.1
    · exact ih hes t ht

/-- A row takes the trees that name its position and leaves those that name an earlier one. -/
theorem attach_append {row : FlatRecord} {n : Nat} (hn : n < 2 ^ 32) {kids following : List RowTree}
    (hkids : ∀ t ∈ kids, t.row.parent = some (.ofIndex n))
    (hfollowing : ∀ t ∈ following, Earlier n t.row.parent) :
    attach (row, n) (kids ++ following) = .node row kids :: following := by
  have hnamed : ∀ t ∈ kids, (t.row.parent == some (.ofIndex n)) = true := by
    intro t ht
    rw [hkids t ht, beq_self_eq_true]
  have hother : ∀ t ∈ following, (t.row.parent == some (.ofIndex n)) = false := by
    intro t ht
    rw [beq_eq_false_iff_ne]
    exact hfollowing t ht n (Nat.le_refl n) hn
  unfold attach
  dsimp only
  rw [List.filter_append, List.filter_append, List.filter_eq_self.mpr hnamed,
    List.filter_eq_nil_iff.mpr (fun t ht => by simp [hother t ht]),
    List.filter_eq_nil_iff.mpr (fun t ht => by simp [hnamed t ht]),
    List.filter_eq_self.mpr (fun t ht => by simp [hother t ht])]
  simp

mutual

theorem foldr_attach_ofEntity (file language : String) (outer : Option String)
    {owner : Option EntityId} {n : Nat} (e : Entity) (h : e.Numbered owner n)
    (hsize : n + e.size ≤ 2 ^ 32) {following : List RowTree}
    (hfollowing : ∀ t ∈ following, Earlier n t.row.parent) :
    ((FlatRecord.ofEntity file language outer e).zipIdx n).foldr attach following =
      ofEntity file language outer e :: following := by
  cases e with
  | entity f cs =>
    obtain ⟨-, -, hcs⟩ := h
    rw [Entity.size] at hsize
    have hn : n < 2 ^ 32 := by omega
    have hinner := foldr_attach_ofEntities file language (some (FlatRecord.qualify outer f.name)) cs
      hcs (earlier_ofIndex hn) (by omega) fun t ht => (hfollowing t ht).mono (Nat.le_succ n)
    rw [FlatRecord.ofEntity, List.zipIdx_cons, List.foldr_cons, hinner]
    exact attach_append hn (parent_of_mem_ofEntities hcs) hfollowing

theorem foldr_attach_ofEntities (file language : String) (outer : Option String)
    {owner : Option EntityId} {n : Nat} (es : List Entity) (h : Entity.NumberedAll owner n es)
    (howner : Earlier n owner) (hsize : n + Entity.sizeAll es ≤ 2 ^ 32) {following : List RowTree}
    (hfollowing : ∀ t ∈ following, Earlier n t.row.parent) :
    ((FlatRecord.ofEntities file language outer es).zipIdx n).foldr attach following =
      ofEntities file language outer es ++ following := by
  cases es with
  | nil => rfl
  | cons e es =>
    obtain ⟨he, hes⟩ := h
    rw [Entity.sizeAll] at hsize
    have hlength : (FlatRecord.ofEntity file language outer e).length = e.size := by
      rw [FlatRecord.length_ofEntity, Entity.length_preorder]
    have hlater := foldr_attach_ofEntities file language outer es hes
      (howner.mono (Nat.le_add_right n e.size)) (by omega)
      fun t ht => (hfollowing t ht).mono (Nat.le_add_right n e.size)
    have hearlier : ∀ t ∈ ofEntities file language outer es ++ following,
        Earlier n t.row.parent := by
      intro t ht
      rcases List.mem_append.mp ht with ht | ht
      · rw [parent_of_mem_ofEntities hes t ht]
        exact howner
      · exact hfollowing t ht
    rw [FlatRecord.ofEntities, List.zipIdx_append, List.foldr_append, hlength, hlater]
    exact foldr_attach_ofEntity file language outer e he (by omega) hearlier

end

/-- The rows of a numbered forest give the forest back. -/
theorem rebuild_ofEntities {file language : String} {es : List Entity}
    (h : Entity.NumberedAll none 0 es) (hsize : Entity.sizeAll es ≤ 2 ^ 32) :
    rebuild (FlatRecord.ofEntities file language none es) = ofEntities file language none es := by
  have hroots : Earlier 0 none := by
    intro i _ _ heq
    cases heq
  have hnone : ∀ t ∈ ([] : List RowTree), Earlier 0 t.row.parent := by simp
  have hfold := foldr_attach_ofEntities file language none es h hroots (by omega) hnone
  rwa [List.append_nil] at hfold

end RowTree

/-! ## The rows of a report -/

namespace FlatRecord

/-- Rows that stand for the entities of a file by their positions: the row at a position is that of
the entity with the position as its id, the owner that it names is the position of a row before it,
and the forest of the file can be rebuilt from them. -/
structure StandFor (rows : List FlatRecord) (r : FileReport) (language : String) : Prop where
  length : rows.length = r.entityCount
  entity : ∀ (j : Nat) (row : FlatRecord), rows[j]? = some row → ∃ e, r.walk[j]? = some e ∧
    e.facts.id.number.toNat = j ∧ row.Describes r.path language e
  owner : ∀ (j : Nat) (row : FlatRecord) (id : EntityId), rows[j]? = some row →
    row.parent = some id → id.number.toNat < j ∧ ∃ e p above, r.walk[j]? = some e ∧
      r.walk[id.number.toNat]? = some p ∧ e ∈ p.children ∧
      rows[id.number.toNat]? = some above ∧ above.Describes r.path language p
  rebuilt : RowTree.rebuild rows = RowTree.ofEntities r.path language none r.entities

theorem ofFile_eq {r : FileReport} {language : String} (h : r.language = some language) :
    ofFile r = ofEntities r.path language none r.entities := by
  unfold ofFile
  rw [h]

theorem forall₂_ofFile {r : FileReport} {language : String} (h : r.language = some language) :
    List.Forall₂ (fun row e => row.Describes r.path language e) (ofFile r) r.walk := by
  rw [ofFile_eq h, FileReport.walk, Entity.walk_eq_preorder]
  exact forall₂_ofEntities r.path language none r.entities

theorem entity_of_row {r : FileReport} {language : String} (h : r.language = some language)
    {j : Nat} {row : FlatRecord} (hj : (ofFile r)[j]? = some row) :
    ∃ e, r.walk[j]? = some e ∧ row.Describes r.path language e := by
  have hall := forall₂_ofFile h
  obtain ⟨hlt, rfl⟩ := List.getElem?_eq_some_iff.mp hj
  have hlt' : j < r.walk.length := by
    rw [← hall.length_eq]
    exact hlt
  exact ⟨_, List.getElem?_eq_getElem hlt', hall.get hlt hlt'⟩

theorem standFor_ofFile {r : FileReport} {cs : List Candidate} {language : String}
    (hlanguage : r.language = some language) (hentities : r.entities = Forest.assemble cs)
    (hsize : r.entityCount < 2 ^ 32) : StandFor (ofFile r) r language := by
  have hlength : (ofFile r).length = r.entityCount := (forall₂_ofFile hlanguage).length_eq
  have hwalk : r.walk = Entity.walk (Forest.assemble cs) := by
    unfold FileReport.walk
    rw [hentities]
  have hcount : (Entity.walk (Forest.assemble cs)).length < 2 ^ 32 := by
    rw [← hwalk]
    exact hsize
  refine ⟨hlength, fun j row hj => ?_, fun j row id hj hid => ?_, ?_⟩
  · obtain ⟨e, he, hde⟩ := entity_of_row hlanguage hj
    have hlt : j < r.walk.length := (List.getElem?_eq_some_iff.mp he).1
    refine ⟨e, he, ?_, hde⟩
    rw [hwalk] at he hlt
    rw [Forest.id_of_walk he, Forest.toNat_ofIndex (by omega)]
  · obtain ⟨e, he, hde⟩ := entity_of_row hlanguage hj
    have hparent : e.facts.parent = some id := by
      rw [← hid, hde]
      rfl
    rw [hwalk] at he
    obtain ⟨hbefore, p, hp, hchild⟩ := Forest.owner_of_parent hcount he hparent
    rw [← hwalk] at he hp
    have hlt : id.number.toNat < (ofFile r).length := by
      rw [hlength]
      exact (List.getElem?_eq_some_iff.mp hp).1
    have habove := List.getElem?_eq_getElem hlt
    obtain ⟨p', hp', hdp⟩ := entity_of_row hlanguage habove
    obtain rfl := Option.some.inj (hp.symm.trans hp')
    exact ⟨hbefore, e, p, _, he, hp, hchild, habove, hdp⟩
  · rw [ofFile_eq hlanguage]
    refine RowTree.rebuild_ofEntities ?_ ?_
    · rw [hentities]
      exact Forest.numbered_assemble cs
    · rw [← Entity.length_preorderAll, ← Entity.walk_eq_preorder]
      exact Nat.le_of_lt hsize

theorem file_of_mem_ofFile {r : FileReport} {row : FlatRecord} (h : row ∈ ofFile r) :
    row.file = r.path := by
  cases hlanguage : r.language with
  | none =>
    unfold ofFile at h
    rw [hlanguage] at h
    cases h
  | some language =>
    obtain ⟨j, hj⟩ := List.mem_iff_getElem?.mp h
    obtain ⟨e, -, hde⟩ := entity_of_row hlanguage hj
    rw [hde]
    rfl

end FlatRecord

namespace ScanReport

/-- Among files with different paths, the rows with the path of a file are the rows of the file. -/
theorem filter_flatten {r : ScanReport} (hpaths : (r.files.map (·.path)).Nodup) {f : FileReport}
    (hf : f ∈ r.files) :
    r.flatten.filter (fun row => row.file == f.path) = FlatRecord.ofFile f := by
  have hothers : ∀ l : List FileReport, f.path ∉ l.map (·.path) →
      (l.flatMap FlatRecord.ofFile).filter (fun row => row.file == f.path) = [] := by
    intro l hl
    rw [List.filter_eq_nil_iff]
    intro row hrow
    obtain ⟨g, hg, hrow⟩ := List.mem_flatMap.mp hrow
    rw [FlatRecord.file_of_mem_ofFile hrow, beq_iff_eq]
    exact fun heq => hl (List.mem_map.mpr ⟨g, hg, heq⟩)
  obtain ⟨before, after, hsplit⟩ := List.append_of_mem hf
  unfold flatten
  rw [hsplit, List.map_append, List.map_cons] at hpaths
  obtain ⟨-, hafter, hapart⟩ := List.nodup_append.mp hpaths
  have hbefore : f.path ∉ before.map (·.path) := fun h =>
    hapart _ h _ List.mem_cons_self rfl
  rw [hsplit, List.flatMap_append, List.flatMap_cons, List.filter_append, List.filter_append,
    hothers before hbefore, hothers after (List.nodup_cons.mp hafter).1, List.append_nil,
    List.nil_append, List.filter_eq_self]
  intro row hrow
  rw [FlatRecord.file_of_mem_ofFile hrow, beq_self_eq_true]

/-- **Rows stand for entities by position.**  Let the entities of every file be assembled from
candidates, fewer than 2^32 of them.  Then the rows of the report are one block for each file, in the
order of the files, which is empty for a file without a language.  In the block of any other file the
row at a position is that of the entity with the position as its id; the owner that a row names is
the position of a row before it, that of the entity which owns it; and the owners, by position, give
back the whole forest.  When no two files have the same path, the rows alone tell the blocks apart. -/
theorem flatten_stands_for_files (r : ScanReport)
    (h : ∀ f ∈ r.files, f.entityCount < 2 ^ 32 ∧ ∃ cs, f.entities = Forest.assemble cs) :
    ∃ blocks : List (List FlatRecord), r.flatten = blocks.flatten ∧
      List.Forall₂ (fun block f =>
        (f.language = none → block = []) ∧
        (∀ language, f.language = some language → FlatRecord.StandFor block f language) ∧
        ((r.files.map (·.path)).Nodup →
          r.flatten.filter (fun row => row.file == f.path) = block)) blocks r.files := by
  refine ⟨r.files.map FlatRecord.ofFile, List.flatMap_def, ?_⟩
  rw [List.forall₂_map_left_iff, List.forall₂_same]
  intro f hf
  obtain ⟨hsize, cs, hcs⟩ := h f hf
  refine ⟨fun hnone => ?_, fun language hlanguage => ?_, fun hpaths => filter_flatten hpaths hf⟩
  · unfold FlatRecord.ofFile
    rw [hnone]
  · exact FlatRecord.standFor_ofFile hlanguage hcs hsize

end ScanReport

/-- A file with declarations that overlap. -/
def FileReport.overlapping : FileReport :=
  ⟨"a.py", some "python", false, .done, Forest.assemble Forest.overlapping, []⟩

namespace ScanReport

def ofOverlapping : ScanReport :=
  ⟨".", [⟨"README", none, false, .failed, [], []⟩, .overlapping], .zero, 0, false⟩

theorem flatten_stands_for_files_overlapping :
    (∀ f ∈ ofOverlapping.files, f.entityCount < 2 ^ 32 ∧ ∃ cs, f.entities = Forest.assemble cs) ∧
    (ofOverlapping.files.map (·.path)).Nodup ∧
    FlatRecord.StandFor (ofOverlapping.flatten.filter (fun row => row.file == "a.py"))
      .overlapping "python" := by
  have hnone : Forest.assemble [] = [] := by
    rw [Forest.assemble, Forest.survivors, List.mergeSort_nil]
    rfl
  have hcount : FileReport.overlapping.entityCount < 2 ^ 32 := by
    show (Entity.walk (Forest.assemble Forest.overlapping)).length < 2 ^ 32
    rw [Forest.length_walk_assemble]
    exact Nat.lt_of_le_of_lt (Forest.length_survivors_le _) (by decide)
  have hfiles : ∀ f ∈ ofOverlapping.files,
      f.entityCount < 2 ^ 32 ∧ ∃ cs, f.entities = Forest.assemble cs := by
    intro f hf
    rcases List.mem_cons.mp hf with rfl | hf
    · exact ⟨by simp [FileReport.entityCount, FileReport.walk, Entity.walk], [], hnone.symm⟩
    · rw [List.mem_singleton.mp hf]
      exact ⟨hcount, Forest.overlapping, rfl⟩
  have hpaths : (ofOverlapping.files.map (·.path)).Nodup := by decide
  obtain ⟨blocks, -, hall⟩ := flatten_stands_for_files ofOverlapping hfiles
  obtain ⟨-, rest, -, hrest, -⟩ := List.forall₂_cons_right_iff.mp hall
  obtain ⟨block, -, ⟨-, hstands, hfilter⟩, -, -⟩ := List.forall₂_cons_right_iff.mp hrest
  refine ⟨hfiles, hpaths, ?_⟩
  rw [← hfilter hpaths] at hstands
  exact hstands "python" rfl

end ScanReport

end CodeAtlas
