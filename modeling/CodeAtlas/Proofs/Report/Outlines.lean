import CodeAtlas.CommandLine.Run
import CodeAtlas.Proofs.Profile.Loading
import CodeAtlas.Proofs.Report.QualifiedNames
import CodeAtlas.Proofs.Structure.Faults
import CodeAtlas.Proofs.Structure.Texts

/-!
Outlines of forests.  An outline has a line for each entity, parents first, and the line of an entity
starts with two spaces for each entity around it:

    forest     levels     lines
    A          0          A
      B        1            B
        C      2              C
      D        1            D

The level of an entity is read off its way, and the shape of the forest off the levels: what stands
deeper than a line and directly below it lies inside its entity (`ofIndentation_levels`).  A text of
an entity cannot disturb this, since none of them has a line break (`outlines_list_entities`).
-/

namespace CodeAtlas

/-! ## Levels -/

namespace Entity

/-- How many entities are around each entity of a forest, in the order of the listing. -/
def levels (forest : List Entity) : List Nat :=
  (waysAll forest).map fun way => way.length - 1

theorem length_levels (es : List Entity) : (levels es).length = (preorderAll es).length := by
  have h := congrArg List.length (getLast?_waysAll es)
  rw [List.length_map, List.length_map] at h
  rw [levels, List.length_map, h]

theorem levels_cons (e : Entity) (es : List Entity) :
    levels (e :: es) = 0 :: (levels e.children).map (· + 1) ++ levels es := by
  cases e with
  | entity f cs =>
    have hbelow : (waysAll cs).map (fun way => (Entity.entity f cs :: way).length - 1) =
        (levels cs).map (· + 1) := by
      rw [levels, List.map_map]
      refine List.map_congr_left fun way hway => ?_
      -- a way is not empty
      obtain ⟨⟨c, -, hhead⟩, -⟩ := isWay_of_mem_waysAll cs way hway
      obtain ⟨rest, rfl⟩ := List.head?_eq_some_iff.mp hhead
      rfl
    rw [levels, waysAll, ways, List.map_append, List.map_cons, List.map_map]
    exact congrArg (fun below => 0 :: below ++ levels es) hbelow

theorem levels_cons_eq_append (e : Entity) (es : List Entity) :
    levels (e :: es) = levels [e] ++ levels es := by
  have hnone : levels [] = [] := rfl
  rw [levels_cons, levels_cons e [], hnone, List.append_nil]

end Entity

namespace Outline

open Entity

mutual

theorem entityLines_eq {α : Type} (line : Nat → Facts → α) (depth : Nat) (e : Entity) :
    entityLines line depth e =
      ((levels [e]).zip e.preorder).map fun place => line (depth + place.1) place.2.facts := by
  cases e with
  | entity f cs =>
    have hlevels : levels [.entity f cs] = 0 :: (levels cs).map (· + 1) := by
      rw [levels_cons]
      exact List.append_nil _
    have hdeeper : ∀ place : Nat × Entity, line (depth + (place.1 + 1)) place.2.facts =
        line (depth + 1 + place.1) place.2.facts := by
      intro place
      rw [Nat.add_right_comm]
      rfl
    rw [entityLines, forestLines_eq line (depth + 1) cs, hlevels, preorder, List.zip_cons_cons,
      List.map_cons, List.zip_map_left, List.map_map]
    exact congrArg (line depth f :: ·) (List.map_congr_left fun place _ => (hdeeper place).symm)

theorem forestLines_eq {α : Type} (line : Nat → Facts → α) (depth : Nat) (es : List Entity) :
    forestLines line depth es =
      ((levels es).zip (preorderAll es)).map fun place => line (depth + place.1) place.2.facts := by
  cases es with
  | nil => rfl
  | cons e es =>
    have hlength : (levels [e]).length = e.preorder.length := by
      rw [length_levels]
      exact congrArg List.length (List.append_nil _)
    rw [forestLines, entityLines_eq line depth e, forestLines_eq line depth es,
      levels_cons_eq_append e es, preorderAll, List.zip_append hlength, List.map_append]

end

end Outline

/-! ## Shapes -/

/-- A forest without what its entities say. -/
inductive Shape where
  | node (below : List Shape)

namespace Entity

mutual

def shape : Entity → Shape
  | .entity _ cs => .node (shapes cs)

def shapes : List Entity → List Shape
  | [] => []
  | e :: es => shape e :: shapes es

end

end Entity

namespace Shape

/-- Puts a line with an indentation in front of the trees that follow it: those that are indented more
lie below it. -/
def adopt (indentation : Nat) (following : List (Nat × Shape)) : List (Nat × Shape) :=
  let below := following.takeWhile (fun t => indentation < t.1)
  (indentation, .node (below.map (·.2))) :: following.dropWhile (fun t => indentation < t.1)

/-- The forest whose listing has these indentations. -/
def ofIndentation (indentations : List Nat) : List Shape :=
  (indentations.foldr adopt []).map (·.2)

/-- A line takes the trees that are indented more and leaves the others. -/
theorem adopt_append {indentation : Nat} {inner following : List (Nat × Shape)}
    (hinner : ∀ t ∈ inner, indentation < t.1) (hfollowing : ∀ t ∈ following, t.1 ≤ indentation) :
    adopt indentation (inner ++ following) =
      (indentation, .node (inner.map (·.2))) :: following := by
  have hdeeper : ∀ t ∈ inner, decide (indentation < t.1) = true := by
    intro t ht
    exact decide_eq_true (hinner t ht)
  have hstop : following.takeWhile (fun t => indentation < t.1) = [] ∧
      following.dropWhile (fun t => indentation < t.1) = following := by
    cases following with
    | nil => exact ⟨rfl, rfl⟩
    | cons t following =>
      have ht := hfollowing t List.mem_cons_self
      have hnot : decide (indentation < t.1) = false := decide_eq_false (by omega)
      simp [hnot]
  unfold adopt
  rw [List.takeWhile_append_of_pos hdeeper, List.dropWhile_append_of_pos hdeeper, hstop.1, hstop.2,
    List.append_nil]

open Entity

mutual

theorem foldr_adopt_entity (depth : Nat) (e : Entity) {following : List (Nat × Shape)}
    (hfollowing : ∀ t ∈ following, t.1 ≤ 2 * depth) :
    ((levels [e]).map fun level => 2 * (depth + level)).foldr adopt following =
      (2 * depth, e.shape) :: following := by
  cases e with
  | entity f cs =>
    have hdeeper : ∀ t ∈ following, t.1 ≤ 2 * (depth + 1) := by
      intro t ht
      have := hfollowing t ht
      omega
    have hbelow := foldr_adopt_forest (depth + 1) cs hdeeper
    have hlevels : (levels [.entity f cs]).map (fun level => 2 * (depth + level)) =
        2 * depth :: (levels cs).map fun level => 2 * (depth + 1 + level) := by
      rw [levels_cons]
      simp [levels, waysAll, children, Function.comp_def, Nat.add_comm, Nat.add_left_comm]
    rw [hlevels, List.foldr_cons, hbelow, adopt_append _ hfollowing, shape]
    · rw [List.map_map]
      simp [Function.comp_def]
    · intro t ht
      obtain ⟨s, -, rfl⟩ := List.mem_map.mp ht
      show 2 * depth < 2 * (depth + 1)
      omega

theorem foldr_adopt_forest (depth : Nat) (es : List Entity) {following : List (Nat × Shape)}
    (hfollowing : ∀ t ∈ following, t.1 ≤ 2 * depth) :
    ((levels es).map fun level => 2 * (depth + level)).foldr adopt following =
      (shapes es).map (2 * depth, ·) ++ following := by
  cases es with
  | nil => rfl
  | cons e es =>
    have hlater := foldr_adopt_forest depth es hfollowing
    have hnext : ∀ t ∈ (shapes es).map (2 * depth, ·) ++ following, t.1 ≤ 2 * depth := by
      intro t ht
      rcases List.mem_append.mp ht with ht | ht
      · obtain ⟨s, -, rfl⟩ := List.mem_map.mp ht
        exact Nat.le_refl _
      · exact hfollowing t ht
    rw [levels_cons_eq_append, List.map_append, List.foldr_append, hlater,
      foldr_adopt_entity depth e hnext]
    rfl

end

/-- The indentations of an outline give the shape of the forest back. -/
theorem ofIndentation_levels (base : Nat) (es : List Entity) :
    ofIndentation ((levels es).map fun level => 2 * (base + level)) = shapes es := by
  have hnone : ∀ t ∈ ([] : List (Nat × Shape)), t.1 ≤ 2 * base := by simp
  have hfold := foldr_adopt_forest base es hnone
  rw [ofIndentation, hfold, List.append_nil, List.map_map]
  simp [Function.comp_def]

end Shape

/-! ## Lines of entities -/

/-- The number of spaces at the start of a line. -/
def indentation (line : String) : Nat :=
  (line.toList.takeWhile (· == ' ')).length

theorem Kind.exists_name_toList (k : Kind) :
    ∃ c rest, k.name.toList = c :: rest ∧ (c == ' ') = false := by
  cases k
  all_goals exact ⟨_, _, rfl, by decide⟩

theorem Kind.unbroken_name (k : Kind) : Text.Unbroken k.name := by
  cases k <;> decide

namespace Facts

open Text

def texts (f : Facts) : List String :=
  f.name :: (f.declaredType.toList ++ f.returnType.toList ++ f.reference.toList)

theorem forall_mem_texts {f : Facts} {P : String → Prop} :
    (∀ t ∈ f.texts, P t) ↔ P f.name ∧ (∀ t ∈ f.declaredType.toList, P t) ∧
      (∀ t ∈ f.returnType.toList, P t) ∧ ∀ t ∈ f.reference.toList, P t := by
  rw [texts, List.forall_mem_cons, List.forall_mem_append, List.forall_mem_append, and_assoc]

theorem Tidy.unbroken {f : Facts} (h : f.Tidy) : ∀ t ∈ f.texts, Unbroken t := by
  refine forall_mem_texts.mpr ⟨h.name.onlySpaces.unbroken, ?_, ?_, ?_⟩
  · intro t ht
    exact (h.declaredType t (Option.mem_toList.mp ht)).1.onlySpaces.unbroken
  · intro t ht
    exact (h.returnType t (Option.mem_toList.mp ht)).1.onlySpaces.unbroken
  · intro t ht
    exact (h.reference t (Option.mem_toList.mp ht)).unbroken

end Facts

namespace Outline

open Text Entity

theorem indentation_indent (depth : Nat) {mark : String} {c : Char} {cs : List Char}
    (hmark : mark.toList = c :: cs) (hc : (c == ' ') = false) (rest : String) :
    indentation (indent depth ++ (mark ++ rest)) = 2 * depth := by
  have hspaces : ∀ b ∈ List.replicate (2 * depth) ' ', (b == ' ') = true := by
    intro b hb
    rw [List.eq_of_mem_replicate hb]
    rfl
  rw [indentation, String.toList_append, String.toList_append, hmark, List.cons_append, indent,
    String.toList_ofList, List.takeWhile_append_of_pos hspaces,
    List.takeWhile_cons_of_neg (by simp [hc]), List.append_nil, List.length_replicate]

theorem unbroken_indent (depth : Nat) : Unbroken (indent depth) := by
  intro c hc
  rw [indent, String.toList_ofList] at hc
  rw [List.eq_of_mem_replicate hc]
  rfl

theorem unbroken_part {before after : String} {text : Option String} (hbefore : Unbroken before)
    (htext : ∀ t ∈ text.toList, Unbroken t) (hafter : Unbroken after) :
    Unbroken (part before text after) := by
  cases text with
  | none => exact List.forall_mem_nil _
  | some t =>
    have ht := htext t (by simp)
    exact unbroken_append.mpr ⟨unbroken_append.mpr ⟨hbefore, ht⟩, hafter⟩

/-- A way to write the line of an entity: it starts with two spaces for each level, and has a line
break only if a text of the entity has one. -/
structure Indented (line : Nat → Facts → String) : Prop where
  indentation : ∀ depth f, indentation (line depth f) = 2 * depth
  unbroken : ∀ depth f, (∀ t ∈ f.texts, Unbroken t) → Unbroken (line depth f)

theorem indented_entityLine : Indented entityLine := by
  refine ⟨fun depth f => ?_, fun depth f h => ?_⟩
  · simp only [entityLine, String.append_assoc]
    exact indentation_indent depth rfl (by decide) _
  · obtain ⟨hname, hdeclared, hreturn, hreference⟩ := Facts.forall_mem_texts.mp h
    have hshown : Unbroken (if f.name.isEmpty then "_" else f.name) := by
      split
      · decide
      · exact hname
    simp only [entityLine, unbroken_append, and_assoc]
    exact ⟨unbroken_indent depth, by decide, f.kind.unbroken_name, by decide, hshown, by decide,
      unbroken_part (by decide) hdeclared (by decide),
      unbroken_part (by decide) hreturn (by decide),
      unbroken_part (by decide) hreference (by decide), by decide, unbroken_toString _, by decide⟩

theorem indented_commandLine : Indented CommandLine.entityLine := by
  refine ⟨fun depth f => ?_, fun depth f h => ?_⟩
  · obtain ⟨c, cs, hkind, hc⟩ := f.kind.exists_name_toList
    simp only [CommandLine.entityLine, String.append_assoc]
    exact indentation_indent depth hkind hc _
  · obtain ⟨hname, hdeclared, hreturn, hreference⟩ := Facts.forall_mem_texts.mp h
    simp only [CommandLine.entityLine, Span.describe, unbroken_append, and_assoc]
    exact ⟨unbroken_indent depth, f.kind.unbroken_name, by decide, hname,
      unbroken_part (by decide) hdeclared (by decide),
      unbroken_part (by decide) hreturn (by decide),
      unbroken_part (by decide) hreference (by decide), by decide,
      unbroken_toString _, by decide, unbroken_toString _⟩

end Outline

/-! ## Outlines of reports -/

/-- The entities of the report are those of some file, structured with some profile. -/
def FileReport.Structured [QueryEngine] (r : FileReport) : Prop :=
  ∃ (f : SourceFile) (p : Profile) (c : QueryCache), (f.structured p c).1 = .ok r.entities

theorem FileReport.Structured.unbroken [QueryEngine] {r : FileReport} (h : r.Structured) :
    ∀ e ∈ r.walk, ∀ t ∈ e.facts.texts, Text.Unbroken t := by
  obtain ⟨f, p, c, hstructured⟩ := h
  intro e he
  exact (SourceFile.tidy_of_structured hstructured he).unbroken

namespace Outline

open Text Entity

/-- Lines that outline a report from some level on: one for each entity, parents first, indented by two
spaces for each level, so that the indentations give the shape of the forest. -/
structure Outlines (line : Nat → Facts → String) (base : Nat) (r : FileReport)
    (lines : List String) : Prop where
  count : lines.length = r.entityCount
  preorder : lines =
    ((levels r.entities).zip r.walk).map fun place => line (base + place.1) place.2.facts
  indented : lines.map indentation = (levels r.entities).map fun level => 2 * (base + level)
  shape : Shape.ofIndentation (lines.map indentation) = shapes r.entities
  unbroken : ∀ s ∈ lines, Unbroken s

theorem outlines_forestLines {line : Nat → Facts → String} (hline : Indented line) (base : Nat)
    {r : FileReport} (h : ∀ e ∈ r.walk, ∀ t ∈ e.facts.texts, Unbroken t) :
    Outlines line base r (forestLines line base r.entities) := by
  have hwalk : r.walk = preorderAll r.entities := walk_eq_preorder r.entities
  have hlength : (levels r.entities).length = r.walk.length := by
    rw [hwalk]
    exact length_levels r.entities
  have hlines : forestLines line base r.entities =
      ((levels r.entities).zip r.walk).map fun place => line (base + place.1) place.2.facts := by
    rw [hwalk]
    exact forestLines_eq line base r.entities
  have hindented : (forestLines line base r.entities).map indentation =
      (levels r.entities).map fun level => 2 * (base + level) := by
    have hlevels := List.map_fst_zip (Nat.le_of_eq hlength)
    rw [hlines, List.map_map]
    calc ((levels r.entities).zip r.walk).map
          (indentation ∘ fun place => line (base + place.1) place.2.facts)
        = ((levels r.entities).zip r.walk).map fun place => 2 * (base + place.1) :=
          List.map_congr_left fun place _ => hline.indentation _ _
      _ = (((levels r.entities).zip r.walk).map Prod.fst).map fun level => 2 * (base + level) := by
          rw [List.map_map]
          rfl
      _ = (levels r.entities).map fun level => 2 * (base + level) := by rw [hlevels]
  refine ⟨?_, hlines, hindented, ?_, ?_⟩
  · rw [hlines, List.length_map, List.length_zip, hlength, Nat.min_self]
    rfl
  · rw [hindented]
    exact Shape.ofIndentation_levels base r.entities
  · rw [hlines, List.forall_mem_map]
    intro place hplace
    exact hline.unbroken _ _ (h place.2 (List.of_mem_zip hplace).2)

theorem brokenLines_fileLines {r : FileReport}
    (h : ∀ s ∈ forestLines entityLine 0 r.entities, Unbroken s) :
    (fileLines r).flatMap brokenLines =
      brokenLines (fileTitle r) ++ [""] ++
        (if r.entities.isEmpty then ["_No declarations._"]
          else forestLines entityLine 0 r.entities) ++ [""] := by
  have hempty : ∀ s ∈ [""], Unbroken s := by decide
  unfold fileLines
  split
  · have hnone : ∀ s ∈ ["", "_No declarations._", ""], Unbroken s := by decide
    rw [List.flatMap_cons, flatMap_brokenLines hnone]
    simp
  · rw [List.flatMap_append, List.flatMap_append, flatMap_brokenLines h, flatMap_brokenLines hempty,
      List.flatMap_cons, flatMap_brokenLines hempty]

/-- **An outline is the forest.**  Take any files and, of those that did not fail, let each be
structured by some query.  Wherever a line may break, the page of the language breaks into its title
and, file after file, the title of the file, the lines of its entities and an empty line; the outline
that is printed for a file breaks into the title and the lines of the entities.  Both outline the
forest: they have one line for each entity, parents first, indented by two spaces for each level, on
the command line after two more, and the indentations give the shape of the forest.  No text of an
entity has a line break, whatever the source was. -/
theorem outlines_list_entities [QueryEngine] (language : String) (files : List FileReport)
    (h : ∀ r ∈ files, r.isFailed = false → r.Structured) :
    brokenLines (languagePage language files) =
      brokenLines ("# " ++ language) ++ [""] ++
        (files.filter (fun r => !r.isFailed)).flatMap (fun r =>
          brokenLines (fileTitle r) ++ [""] ++
            (if r.entities.isEmpty then ["_No declarations._"]
              else forestLines entityLine 0 r.entities) ++ [""]) ++ [""] ∧
    ∀ r ∈ files, r.isFailed = false →
      brokenLines (page (CommandLine.outlineLines r)) =
        brokenLines (CommandLine.outlineTitle r) ++
          forestLines CommandLine.entityLine 1 r.entities ++ [""] ∧
      Outlines entityLine 0 r (forestLines entityLine 0 r.entities) ∧
      Outlines CommandLine.entityLine 1 r (forestLines CommandLine.entityLine 1 r.entities) ∧
      ∀ e ∈ r.walk, ∀ t ∈ e.facts.texts, Unbroken t := by
  have hlearning : ∀ r ∈ files, r.isFailed = false →
      Outlines entityLine 0 r (forestLines entityLine 0 r.entities) :=
    fun r hr hdone => outlines_forestLines indented_entityLine 0 (h r hr hdone).unbroken
  refine ⟨?_, fun r hr hdone => ⟨?_, hlearning r hr hdone, ?_, (h r hr hdone).unbroken⟩⟩
  · have htitle : (["# " ++ language, ""]).flatMap brokenLines =
        brokenLines ("# " ++ language) ++ [""] := by
      rw [List.flatMap_cons, flatMap_brokenLines (by decide)]
    rw [languagePage, brokenLines_page, List.flatMap_append, htitle, List.flatMap_assoc]
    congr 2
    refine List.flatMap_congr fun r hr => ?_
    obtain ⟨hmem, hnot⟩ := List.mem_filter.mp hr
    exact brokenLines_fileLines (hlearning r hmem (by simpa using hnot)).unbroken
  · have houtlines := outlines_forestLines indented_commandLine 1 (h r hr hdone).unbroken
    rw [brokenLines_page, CommandLine.outlineLines, List.flatMap_cons,
      flatMap_brokenLines houtlines.unbroken]
  · exact outlines_forestLines indented_commandLine 1 (h r hr hdone).unbroken

end Outline

/-- A language whose structure query finds classes and their names. -/
def Profile.namedClasses : Profile where
  id := "notes"
  aliases := []
  extensions := ["txt"]
  defaultGrammar := .ofHandle .python
  otherGrammars := []
  extensionGrammars := []
  testRule := .anyOf []
  queries := ⟨fun name => ⟨name, "notes", 1,
    "(class_definition name: (identifier) @class.name) @class"⟩⟩
  taxonomy := ⟨[⟨"types", [.classDecl]⟩]⟩
  builtinTypes := []
  autoSelect := []

/-- A class within a class whose name goes over two lines. -/
def SourceFile.classInClass : SourceFile :=
  let info (kind : String) (start stop : Nat) (field : Option String) : NodeInfo :=
    { (default : NodeInfo) with
      kind := kind, startByte := start, endByte := stop, named := true, field := field }
  ⟨"a.txt", "notes", "python", Text.Utf8.encode "class A\n B: class C",
    .node (info "module" 0 19 none)
      [.node (info "class_definition" 0 19 none)
        [.node (info "identifier" 6 10 "name") [],
          .node (info "class_definition" 12 19 none)
            [.node (info "identifier" 18 19 "name") []]]]⟩

/-- The two classes, as the query finds them. -/
def Forest.classInClass : List Candidate :=
  [⟨.classDecl, 0, ⟨0, 19, 1, 1, 2, 12⟩, some "A B", none, none, []⟩,
    ⟨.classDecl, 0, ⟨12, 19, 2, 5, 2, 12⟩, some "C", none, none, []⟩]

theorem Forest.assemble_classInClass : assemble classInClass = nest classInClass := by
  have hordered : classInClass.Pairwise (fun c d => c.precedes d = true) := by decide
  rw [assemble, survivors, List.mergeSort_of_pairwise hordered]
  rfl

def FileReport.classInClass : FileReport :=
  ⟨"a.txt", some "notes", false, .done, Forest.assemble Forest.classInClass, []⟩

theorem FileReport.structured_classInClass : classInClass.Structured := by
  have hfound : (Profile.namedClasses.fitted "python").map (fun fit =>
      (fit.2.run SourceFile.classInClass.bytes SourceFile.classInClass.root).filterMap
        (Candidate.ofMatch? .classInClass fit.1)) = .ok Forest.classInClass := by
    decide +kernel
  obtain ⟨⟨table, q⟩, hfit, hcandidates⟩ := exists_of_map_ok hfound
  refine ⟨.classInClass, .namedClasses, .empty, ?_⟩
  refine (SourceFile.structured_ok_iff _ _ QueryCache.reachable_empty _).mpr ⟨table, q, hfit, ?_⟩
  rw [SourceFile.entitiesOf, hcandidates]
  rfl

namespace Outline

open Text Entity

theorem outlines_list_entities_nested :
    (∀ r ∈ [FileReport.classInClass], r.isFailed = false → r.Structured) ∧
    brokenLines (languagePage "notes" [.classInClass]) = ["# notes", "", "## \x60a.txt\x60", "",
      "- **class** \x60A B\x60 (line 1)", "  - **class** \x60C\x60 (line 2)", "", ""] ∧
    brokenLines (page (CommandLine.outlineLines .classInClass)) =
      ["a.txt (notes)", "  class A B  1:1", "    class C  2:5", ""] := by
  have hstructured : ∀ r ∈ [FileReport.classInClass], r.isFailed = false → r.Structured :=
    List.forall_mem_singleton.mpr fun _ => FileReport.structured_classInClass
  obtain ⟨hpage, hfiles⟩ := outlines_list_entities "notes" [.classInClass] hstructured
  have hentities : FileReport.classInClass.entities = Forest.nest Forest.classInClass :=
    Forest.assemble_classInClass
  have hfilter : [FileReport.classInClass].filter (fun r => !r.isFailed) = [.classInClass] := rfl
  refine ⟨hstructured, ?_, ?_⟩
  · rw [hpage, hfilter, List.flatMap_singleton, hentities]
    decide +kernel
  · rw [(hfiles _ List.mem_cons_self rfl).1, hentities]
    decide +kernel

end Outline

end CodeAtlas
