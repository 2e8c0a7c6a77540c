import CodeAtlas.Proofs.Report.Rows

/-!
Qualified names.  A row is named after the *way* to its entity: the entities from a root of the file
down to it.  Flattening passes the name of what is around an entity on to what is inside it, so the
name of a row is a fold over the names on its way (`qualifyAll`), and this fold is a join in which the
empty names are left out, except that of the root:

    qualifyAll none (n :: ns) = join "::" (n :: the non-empty ones of ns)

A root without a name therefore shows as soon as something on the way has one, by a separator in
front (`qualified_names_join_iff`).
-/

namespace CodeAtlas

/-! ## Ways -/

namespace Entity

mutual

/-- The ways from an entity to itself and to everything below it, in the order of the listing. -/
def ways : Entity → List (List Entity)
  | .entity f cs => [.entity f cs] :: (waysAll cs).map (.entity f cs :: ·)

def waysAll : List Entity → List (List Entity)
  | [] => []
  | e :: es => ways e ++ waysAll es

end

/-- A way in a forest starts at a root and goes from an entity to one of its children. -/
structure IsWay (forest way : List Entity) : Prop where
  root : ∃ e ∈ forest, way.head? = some e
  down : way.IsChain (fun p e => e ∈ p.children)

theorem IsWay.mono {forest forest' way : List Entity} (h : IsWay forest way)
    (hsub : ∀ e ∈ forest, e ∈ forest') : IsWay forest' way := by
  obtain ⟨⟨e, he, hhead⟩, hdown⟩ := h
  exact ⟨⟨e, hsub e he, hhead⟩, hdown⟩

theorem IsWay.cons {e : Entity} {way : List Entity} (h : IsWay e.children way) :
    IsWay [e] (e :: way) := by
  obtain ⟨⟨c, hc, hhead⟩, hdown⟩ := h
  refine ⟨⟨e, List.mem_cons_self, rfl⟩, ?_⟩
  obtain ⟨rest, rfl⟩ := List.head?_eq_some_iff.mp hhead
  exact List.isChain_cons_cons.mpr ⟨hc, hdown⟩

mutual

theorem isWay_of_mem_ways (e : Entity) : ∀ way ∈ e.ways, IsWay [e] way := by
  cases e with
  | entity f cs =>
    intro way hway
    rcases List.mem_cons.mp hway with rfl | hway
    · exact ⟨⟨_, List.mem_cons_self, rfl⟩, List.isChain_singleton _⟩
    · obtain ⟨way, hbelow, rfl⟩ := List.mem_map.mp hway
      exact IsWay.cons (isWay_of_mem_waysAll cs way hbelow)

theorem isWay_of_mem_waysAll (es : List Entity) : ∀ way ∈ waysAll es, IsWay es way := by
  cases es with
  | nil =>
    intro way hway
    cases hway
  | cons e es =>
    intro way hway
    rcases List.mem_append.mp hway with hway | hway
    · exact (isWay_of_mem_ways e way hway).mono fun x hx => by
        rw [List.mem_singleton.mp hx]
        exact List.mem_cons_self
    · exact (isWay_of_mem_waysAll es way hway).mono fun x => List.mem_cons_of_mem e

end

mutual

theorem getLast?_ways (e : Entity) : e.ways.map List.getLast? = e.preorder.map some := by
  cases e with
  | entity f cs =>
    have hbelow := getLast?_waysAll cs
    rw [ways, preorder, List.map_cons, List.map_cons, List.map_map, ← hbelow]
    refine congrArg₂ List.cons rfl (List.map_congr_left fun way hway => ?_)
    -- A way below the entity is not empty, so the entity in front of it is not its end.
    obtain ⟨⟨c, -, hhead⟩, -⟩ := isWay_of_mem_waysAll cs way hway
    obtain ⟨rest, rfl⟩ := List.head?_eq_some_iff.mp hhead
    exact List.getLast?_cons_cons

theorem getLast?_waysAll (es : List Entity) :
    (waysAll es).map List.getLast? = (preorderAll es).map some := by
  cases es with
  | nil => rfl
  | cons e es =>
    rw [waysAll, preorderAll, List.map_append, List.map_append, getLast?_ways e,
      getLast?_waysAll es]

end

def namesOn (way : List Entity) : List String :=
  (way.map (·.facts.name)).filter (fun name => !name.isEmpty)

/-- A way from a root without a name to or past an entity with one. -/
def StartsUnnamed (way : List Entity) : Prop :=
  (∃ root, way.head? = some root ∧ root.facts.name = "") ∧ namesOn way ≠ []

end Entity

/-! ## Names along a way -/

namespace FlatRecord

open Entity

/-- The qualified name at the end of a way with the given names. -/
def qualifyAll (outer : Option String) (names : List String) : Option String :=
  names.foldl (fun q name => some (qualify q name)) outer

theorem qualifyAll_cons (outer : Option String) (name : String) (names : List String) :
    qualifyAll outer (name :: names) = qualifyAll (some (qualify outer name)) names := rfl

/-- Below the root the empty names are passed over. -/
theorem qualifyAll_some (q : String) (names : List String) :
    qualifyAll (some q) names =
      some (Text.join separator (q :: names.filter (fun name => !name.isEmpty))) := by
  induction names generalizing q with
  | nil =>
    show some q = some (String.intercalate separator [q])
    rw [String.intercalate_singleton]
  | cons name names ih =>
    rw [qualifyAll_cons, ih]
    by_cases hname : name.isEmpty = true
    · have hq : qualify (some q) name = q := by simp [qualify, hname]
      rw [hq, List.filter_cons_of_neg (by simp [hname])]
    · have hq : qualify (some q) name = q ++ separator ++ name := by simp [qualify, hname]
      rw [hq, List.filter_cons_of_pos (by simp [hname]), Text.join, Text.join,
        String.intercalate_cons_append, String.intercalate_cons_cons]

theorem qualifyAll_none (root : String) (names : List String) :
    qualifyAll none (root :: names) =
      some (Text.join separator (root :: names.filter (fun name => !name.isEmpty))) :=
  qualifyAll_some root names

/-- The row at the end of a way, up to how the names on the way make its own. -/
def Ends (row : FlatRecord) (file language : String) (outer : Option String)
    (way : List Entity) : Prop :=
  (∃ e, way.getLast? = some e ∧ row.Describes file language e) ∧
    some row.qualifiedName = qualifyAll outer (way.map (·.facts.name))

theorem Ends.cons {row : FlatRecord} {file language : String} {outer : Option String} {e : Entity}
    {way : List Entity} (h : row.Ends file language (some (qualify outer e.facts.name)) way) :
    row.Ends file language outer (e :: way) := by
  obtain ⟨⟨last, hlast, hdescribes⟩, hname⟩ := h
  refine ⟨⟨last, ?_, hdescribes⟩, ?_⟩
  · rw [List.getLast?_cons, hlast]
    rfl
  · rw [List.map_cons, qualifyAll_cons]
    exact hname

mutual

theorem forall₂_ends_ofEntity (file language : String) (outer : Option String) (e : Entity) :
    List.Forall₂ (fun row way => row.Ends file language outer way)
      (ofEntity file language outer e) e.ways := by
  cases e with
  | entity f cs =>
    refine .cons ⟨⟨_, rfl, rfl⟩, rfl⟩ ?_
    rw [List.forall₂_map_right_iff]
    exact (forall₂_ends_ofEntities file language _ cs).imp fun row way h => Ends.cons h

theorem forall₂_ends_ofEntities (file language : String) (outer : Option String)
    (es : List Entity) :
    List.Forall₂ (fun row way => row.Ends file language outer way)
      (ofEntities file language outer es) (waysAll es) := by
  cases es with
  | nil => exact .nil
  | cons e es =>
    exact List.rel_append (forall₂_ends_ofEntity file language outer e)
      (forall₂_ends_ofEntities file language outer es)

end

/-! ## The join of the names -/

/-- A row is named by the names on a way: their join without the empty ones, or this join after a
separator when the way starts unnamed. -/
structure NamedBy (row : FlatRecord) (way : List Entity) : Prop where
  join_iff : row.qualifiedName = Text.join separator (namesOn way) ↔ ¬ StartsUnnamed way
  led : StartsUnnamed way → row.qualifiedName = separator ++ Text.join separator (namesOn way)

theorem separator_append_ne (s : String) : separator ++ s ≠ s := by
  intro h
  have hlength := congrArg String.length h
  rw [String.length_append] at hlength
  have htwo : separator.length = 2 := rfl
  omega

theorem namedBy_of_qualifyAll {row : FlatRecord} {way : List Entity} (hway : way ≠ [])
    (h : some row.qualifiedName = qualifyAll none (way.map (·.facts.name))) : row.NamedBy way := by
  obtain ⟨root, below, rfl⟩ := List.exists_cons_of_ne_nil hway
  rw [List.map_cons, qualifyAll_none] at h
  have hname := Option.some.inj h
  by_cases hroot : root.facts.name = ""
  · have hnames : namesOn (root :: below) =
        (below.map (·.facts.name)).filter (fun name => !name.isEmpty) := by
      rw [namesOn, List.map_cons, List.filter_cons_of_neg (by simp [hroot])]
    rw [← hnames, hroot] at hname
    by_cases hnone : namesOn (root :: below) = []
    · have hstart : ¬ StartsUnnamed (root :: below) := fun hs => hs.2 hnone
      refine ⟨iff_of_true ?_ hstart, fun hs => absurd hs hstart⟩
      rw [hname, hnone]
      rfl
    · have hstart : StartsUnnamed (root :: below) := ⟨⟨root, rfl, hroot⟩, hnone⟩
      have hled : row.qualifiedName =
          separator ++ Text.join separator (namesOn (root :: below)) := by
        rw [hname, Text.join, String.intercalate_cons_of_ne_nil hnone, String.empty_append]
        rfl
      refine ⟨iff_of_false ?_ (not_not_intro hstart), fun _ => hled⟩
      rw [hled]
      exact separator_append_ne _
  · have hnames : namesOn (root :: below) =
        root.facts.name :: (below.map (·.facts.name)).filter (fun name => !name.isEmpty) := by
      rw [namesOn, List.map_cons, List.filter_cons_of_pos (by simp [hroot])]
    have hstart : ¬ StartsUnnamed (root :: below) := by
      rintro ⟨⟨r, hr, hempty⟩, -⟩
      cases hr
      exact hroot hempty
    exact ⟨iff_of_true (by rw [hname, hnames]) hstart, fun hs => absurd hs hstart⟩

end FlatRecord

namespace ScanReport

open Entity

/-- **When a qualified name is the join of the names on the way.**  The rows of a report are one
block for each file, in the order of the files, which is empty for a file without a language.  In the
block of any other file there is one row for the way to each entity, in the order of the listing,
and it is that of the entity at the end of the way.  Its qualified name is the join of the non-empty
names on the way if and only if the root has a name or nothing on the way has; otherwise it is this
join after a separator. -/
theorem qualified_names_join_iff (r : ScanReport) :
    ∃ blocks : List (List FlatRecord), r.flatten = blocks.flatten ∧
      List.Forall₂ (fun block f =>
        (f.language = none → block = []) ∧
        (waysAll f.entities).map List.getLast? = f.walk.map some ∧
        ∀ language, f.language = some language →
          List.Forall₂ (fun row way => IsWay f.entities way ∧
            (∃ e, way.getLast? = some e ∧ row.Describes f.path language e) ∧
            row.NamedBy way) block (waysAll f.entities)) blocks r.files := by
  refine ⟨r.files.map FlatRecord.ofFile, List.flatMap_def, ?_⟩
  rw [List.forall₂_map_left_iff, List.forall₂_same]
  intro f _
  refine ⟨fun hnone => ?_, ?_, fun language hlanguage => ?_⟩
  · unfold FlatRecord.ofFile
    rw [hnone]
  · rw [getLast?_waysAll, FileReport.walk, walk_eq_preorder]
  · rw [FlatRecord.ofFile_eq hlanguage]
    have hends := FlatRecord.forall₂_ends_ofEntities f.path language none f.entities
    have hboth := (List.forall₂_and_left _ _).mpr ⟨isWay_of_mem_waysAll f.entities, hends.flip⟩
    refine hboth.flip.imp ?_
    rintro row way ⟨hway, hlast, hname⟩
    refine ⟨hway, hlast, FlatRecord.namedBy_of_qualifyAll ?_ hname⟩
    rintro rfl
    obtain ⟨e, -, hhead⟩ := hway.root
    cases hhead

end ScanReport

/-- A class without a name, and a method in it. -/
def FileReport.unnamedClass : FileReport :=
  let facts (i : Nat) (kind : Kind) (name : String) (parent : Option EntityId) : Facts :=
    { (default : Facts) with id := .ofIndex i, kind := kind, name := name, parent := parent }
  ⟨"shape.js", some "javascript", false, .done,
    [.entity (facts 0 .classDecl "" none) [.entity (facts 1 .methodDecl "area" (some (.ofIndex 0))) []]],
    []⟩

/-- The name of the method starts with a separator, although it is the only name on the way. -/
theorem ScanReport.unnamed_root_leaves_separator :
    (ScanReport.flatten ⟨".", [.unnamedClass], .zero, 0, false⟩).map (·.qualifiedName) =
      ["", "::area"] ∧
    (Entity.waysAll FileReport.unnamedClass.entities).map
      (fun way => Text.join FlatRecord.separator (Entity.namesOn way)) = ["", "area"] := by
  decide +kernel

end CodeAtlas
