import CodeAtlas.Proofs.Navigation.Documentation
import CodeAtlas.Proofs.Profile.Loading
import CodeAtlas.Proofs.Text.BareType

/-!
Return types, read twice.  Structuring takes the type text of a captured node, and has no return type
if nothing is left of it; a signature shows what is left, and shows an empty text then.

    captured text     "-> int"      "-> :"      "->"       ""
    structured        int           :           none       none
    in a signature    int           :           (empty)    (empty)

So the two agree on a text if and only if it has more than the marks that announce a type
(`return_readers_agree_iff`).
-/

namespace CodeAtlas

theorem Candidate.addText_result (c : Candidate) (text : String) :
    (c.addText .result text).returnType = Text.typeText? text := by
  rw [addText]

namespace SourceFile

open Text

theorem returnText_eq (f : SourceFile) (i : NodeInfo) :
    f.returnText i = (typeText? (f.nodeText i)).getD "" := by
  unfold returnText collapsedText collapse typeText?
  rw [String.toList_ofList]
  dsimp only
  split
  · rename_i hempty
    rw [List.isEmpty_iff.mp hempty]
    rfl
  · rfl

theorem exists_match_of_mem_signatures [QueryEngine] {f : SourceFile} {p : Profile}
    {reported : List MethodSignature} (h : f.signatures p = .ok reported) :
    ∃ matched, f.capturesOf p .signature = .ok matched ∧
      ∀ s ∈ reported, ∃ captures ∈ matched, ∃ node name,
        first? "signature" captures = some node ∧ first? "name" captures = some name ∧
        s = { name := f.collapsedText name
              parameters := ((first? "params" captures).map f.collapsedText).getD ""
              returnType := (first? "return" captures).map f.returnText
              span := f.spanOf node } := by
  unfold signatures at h
  cases hmatched : f.capturesOf p .signature with
  | error e =>
    rw [hmatched] at h
    cases h
  | ok matched =>
    rw [hmatched] at h
    cases h
    refine ⟨matched, rfl, fun s hs => ?_⟩
    obtain ⟨captures, hcaptures, hs⟩ := List.mem_filterMap.mp (mem_of_mem_byStart hs)
    obtain ⟨node, hnode, hs⟩ := Option.bind_eq_some_iff.mp hs
    obtain ⟨name, hname, hs⟩ := Option.bind_eq_some_iff.mp hs
    exact ⟨captures, hcaptures, node, name, hnode, hname, (Option.some.inj hs).symm⟩

/-- **When the two readers of a return type agree.**  A text has no type text if and only if it is
arrows and then colons once it is collapsed; a blank text is one of these.  Report the signatures of
any file with any profile: each of them comes from a match, and has no return type if the match
captured none.  If it captured one, the signature shows the type text of the node, as structuring takes
it, or an empty text if there is none, so that the two agree if and only if the text of the node has
more than marks. -/
theorem return_readers_agree_iff [QueryEngine] (f : SourceFile) (p : Profile)
    {reported : List MethodSignature} (h : f.signatures p = .ok reported) :
    (∀ s, typeText? s = none ↔ OnlyMarks (collapseChars s.toList)) ∧
    ∃ matched, f.capturesOf p .signature = .ok matched ∧
      ∀ s ∈ reported, ∃ captures ∈ matched, ∃ node,
        first? "signature" captures = some node ∧ s.span = f.spanOf node ∧
        (first? "return" captures = none → s.returnType = none) ∧
        ∀ i, first? "return" captures = some i →
          s.returnType = some ((typeText? (f.nodeText i)).getD "") ∧
          ∀ c : Candidate, s.returnType = (c.addText .result (f.nodeText i)).returnType ↔
            ¬ OnlyMarks (collapseChars (f.nodeText i).toList) := by
  refine ⟨typeText?_eq_none_iff, ?_⟩
  obtain ⟨matched, hmatched, hall⟩ := exists_match_of_mem_signatures h
  refine ⟨matched, hmatched, fun s hs => ?_⟩
  obtain ⟨captures, hcaptures, node, name, hnode, -, rfl⟩ := hall s hs
  refine ⟨captures, hcaptures, node, hnode, rfl, fun hnone => ?_, fun i hi => ?_⟩
  · rw [hnone]
    rfl
  · have hshown : (first? "return" captures).map f.returnText =
        some ((typeText? (f.nodeText i)).getD "") := by
      rw [hi, Option.map_some, returnText_eq]
    refine ⟨hshown, fun c => ?_⟩
    rw [hshown, c.addText_result, ← typeText?_eq_none_iff]
    cases typeText? (f.nodeText i) with
    | none => simp
    | some t => simp

end SourceFile

/-- A language whose queries capture functions and the types that they return. -/
def Profile.functions : Profile where
  id := "notes"
  aliases := []
  extensions := ["txt"]
  defaultGrammar := .ofHandle .python
  otherGrammars := []
  extensionGrammars := []
  testRule := .anyOf []
  queries := ⟨fun name => ⟨name, "notes", 1,
    match name with
    | .structural => "(function_definition return_type: (type) @function.return) @function"
    | .signature =>
      "(function_definition name: (identifier) @name return_type: (type) @return) @signature"
    | _ => ""⟩⟩
  taxonomy := ⟨[.functions]⟩
  builtinTypes := []
  autoSelect := []

namespace SourceFile

def functionReturning (written : List UInt8) : SourceFile :=
  let info (kind : String) (start stop : Nat) (field : Option String) : NodeInfo :=
    { (default : NodeInfo) with
      kind := kind, startByte := start, endByte := stop, named := true, field := field }
  let size := written.length
  ⟨"a.txt", "notes", "python", Text.Utf8.encode "f " ++ written,
    .node (info "module" 0 (2 + size) none)
      [.node (info "function_definition" 0 (2 + size) none)
        [.node (info "identifier" 0 1 "name") [],
          .node (info "type" 2 (2 + size) "return_type") []]]⟩

def shownReturns (f : SourceFile) : Except Failure (List (Option String)) :=
  (f.signatures .functions).map fun reported => reported.map fun s => s.returnType

def structuredReturns (f : SourceFile) : Except Failure (List (Option String)) :=
  (f.structured .functions .empty).1.map fun entities =>
    (Entity.walk entities).map fun e => e.facts.returnType

open Text

theorem return_readers_agree_iff_int :
    ∃ reported,
      (functionReturning (Utf8.encode "-> int")).signatures .functions = .ok reported ∧
      ∃ s ∈ reported, s.returnType = some "int" ∧
        ∃ i, s.returnType = typeText? ((functionReturning (Utf8.encode "-> int")).nodeText i) := by
  have hshown : (functionReturning (Utf8.encode "-> int")).shownReturns = .ok [some "int"] := by
    decide +kernel
  unfold shownReturns at hshown
  obtain ⟨reported, hok, hreturns⟩ := exists_of_map_ok hshown
  have hmem : some "int" ∈ reported.map fun s => s.returnType := by
    rw [hreturns]
    exact List.mem_cons_self
  obtain ⟨s, hs, hreturn⟩ := List.mem_map.mp hmem
  obtain ⟨hmarks, matched, -, hall⟩ := return_readers_agree_iff _ _ hok
  obtain ⟨captures, -, node, -, -, hnone, hsome⟩ := hall s hs
  refine ⟨reported, hok, s, hs, hreturn, ?_⟩
  cases hcaptured : first? "return" captures with
  | none =>
    rw [hnone hcaptured] at hreturn
    cases hreturn
  | some i =>
    obtain ⟨htext, hagree⟩ := hsome i hcaptured
    have hagree := hagree default
    rw [Candidate.addText_result] at hagree
    refine ⟨i, hagree.mpr fun hmarked => ?_⟩
    -- marks alone would have been shown as an empty text
    rw [(hmarks _).mpr hmarked, hreturn] at htext
    simp at htext

/-- A return type of one byte that is no text is captured by both queries.  The signature shows an empty
return type, and the entity has none. -/
theorem unreadable_return_shown_empty :
    (functionReturning [0xFF]).shownReturns = .ok [some ""] ∧
    (functionReturning [0xFF]).structuredReturns = .ok [none] ∧ typeText? "" = none := by
  refine ⟨?_, ?_, ?_⟩
  · decide +kernel
  · decide +kernel
  · decide

end SourceFile

end CodeAtlas
