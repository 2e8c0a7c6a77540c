import CodeAtlas.Proofs.Profile.Loading
import CodeAtlas.Proofs.Query.Captured
import Mathlib.Control.Monad.Basic

/-!
The scopes around an offset and the node to show there.  Both are found by length alone: scopes are
sorted by it, and the shortest node is shown.  In a tree this is enough, since of two nodes that hold
an offset the longer one encloses the shorter (`nestAt_of_tree`).

    sorted by length   →   each strictly within the next      (pairwise_scopesAt)
    the shortest       →   enclosed by all the others         (encloses_shortestAt)
-/

namespace CodeAtlas

/-- `s` lies in `t`, and `t` does not lie in `s`. -/
def Span.StrictlyWithin (s t : Span) : Prop :=
  t.contains s = true ∧ s.contains t = false

namespace SourceFile

/-! ## Spans of nodes -/

theorem spanOf_eq_iff (f : SourceFile) (i j : NodeInfo) :
    f.spanOf i = f.spanOf j ↔ i.startByte = j.startByte ∧ i.endByte = j.endByte := by
  constructor
  · intro h
    exact ⟨congrArg Span.startByte h, congrArg Span.endByte h⟩
  · rintro ⟨hstart, hend⟩
    unfold spanOf
    rw [hstart, hend]

theorem spanOf_contains_iff (f : SourceFile) (i j : NodeInfo) :
    (f.spanOf i).contains (f.spanOf j) = true ↔ i.Encloses j := by
  rw [Span.contains, Bool.and_eq_true, decide_eq_true_eq, decide_eq_true_eq]
  rfl

theorem spanOf_containsOffset (f : SourceFile) (i : NodeInfo) (offset : Nat) :
    (f.spanOf i).containsOffset offset = i.holds offset := rfl

/-! ## Nodes at an offset -/

/-- Of some nodes, those that hold an offset lie in one another, the shorter in the longer. -/
def NestAt (offset : Nat) (nodes : List NodeInfo) : Prop :=
  ∀ i ∈ nodes, ∀ j ∈ nodes, i.holds offset = true → j.holds offset = true →
    i.length ≤ j.length → j.Encloses i

theorem nestAt_of_tree {root : Node} (hin : root.Enclosing) (hspread : root.Spread)
    {nodes : List NodeInfo} (hnodes : ∀ i ∈ nodes, ∃ n ∈ root.preorder, n.info = i)
    (offset : Nat) : NestAt offset nodes := by
  intro i hi j hj hio hjo hle
  obtain ⟨m, hm, rfl⟩ := hnodes i hi
  obtain ⟨n, hn, rfl⟩ := hnodes j hj
  rcases Node.nested_of_holds hin hspread hm hn hio hjo with h | h
  · -- The other way round the two have the same range.
    rw [NodeInfo.holds_iff] at hio hjo
    unfold NodeInfo.length at hle
    unfold NodeInfo.Encloses at *
    omega
  · exact h

theorem nestAt_labelled [QueryEngine] (hengine : QueryEngine.CapturesFromTree) {f : SourceFile}
    (hin : f.root.Enclosing) (hspread : f.root.Spread) {p : Profile} {name : QueryName}
    {matched : List Captures} (h : f.capturesOf p name = .ok matched) (label : String)
    (offset : Nat) : NestAt offset (labelled label matched) :=
  nestAt_of_tree hin hspread (fun _ hi => mem_preorder_of_labelled hengine h hi) offset

/-! ## Scopes -/

theorem innerFirst_iff (s t : Span) :
    innerFirst s t = true ↔
      s.length < t.length ∨ (s.length = t.length ∧ t.startByte ≤ s.startByte) := by
  simp [innerFirst]

theorem innerFirst_trans (s t u : Span) (hst : innerFirst s t = true)
    (htu : innerFirst t u = true) : innerFirst s u = true := by
  rw [innerFirst_iff] at *
  omega

theorem innerFirst_total (s t : Span) : (innerFirst s t || innerFirst t s) = true := by
  rw [Bool.or_eq_true, innerFirst_iff, innerFirst_iff]
  omega

theorem mem_sorted_iff (f : SourceFile) (offset : Nat) (nodes : List NodeInfo) (s : Span) :
    s ∈ ((nodes.map f.spanOf).filter (·.containsOffset offset)).mergeSort innerFirst ↔
      ∃ i ∈ nodes, i.holds offset = true ∧ f.spanOf i = s := by
  rw [(List.mergeSort_perm _ _).mem_iff, List.mem_filter, List.mem_map]
  constructor
  · rintro ⟨⟨i, hi, rfl⟩, hs⟩
    exact ⟨i, hi, hs, rfl⟩
  · rintro ⟨i, hi, hio, rfl⟩
    exact ⟨⟨i, hi, rfl⟩, hio⟩

theorem mem_scopesAt_iff (f : SourceFile) (offset : Nat) (nodes : List NodeInfo) (s : Span) :
    s ∈ scopesAt offset (nodes.map f.spanOf) ↔
      ∃ i ∈ nodes, i.holds offset = true ∧ f.spanOf i = s := by
  rw [← mem_sorted_iff]
  constructor
  · intro h
    exact (firstOfRuns_sublist _ _).subset h
  · intro h
    obtain ⟨t, ht, hst⟩ := exists_mem_firstOfRuns (fun a => beq_self_eq_true a) h
    rwa [eq_of_beq hst]

/-- Sorting by length puts the scopes in a chain, and equal ones next to each other. -/
theorem pairwise_scopesAt (f : SourceFile) {offset : Nat} {nodes : List NodeInfo}
    (h : NestAt offset nodes) :
    (scopesAt offset (nodes.map f.spanOf)).Pairwise Span.StrictlyWithin := by
  have hmem := mem_sorted_iff f offset nodes
  have hsorted := List.Pairwise.and_mem.mp (List.pairwise_mergeSort innerFirst_trans
    innerFirst_total ((nodes.map f.spanOf).filter (·.containsOffset offset)))
  unfold scopesAt
  generalize ((nodes.map f.spanOf).filter (·.containsOffset offset)).mergeSort innerFirst = sorted
    at hmem hsorted
  -- equal scopes stand together: what stands between two of them has their length and their bytes
  have hbetween : ∀ s t u : Span, (s ∈ sorted ∧ t ∈ sorted ∧ innerFirst s t = true) →
      (t ∈ sorted ∧ u ∈ sorted ∧ innerFirst t u = true) → (u == s) = true → (t == s) = true := by
    rintro s t u ⟨hs, ht, hst⟩ ⟨-, -, htu⟩ hus
    rw [eq_of_beq hus] at htu
    obtain ⟨i, -, hio, rfl⟩ := (hmem s).mp hs
    obtain ⟨j, -, hjo, rfl⟩ := (hmem t).mp ht
    rw [innerFirst_iff] at hst htu
    rw [NodeInfo.holds_iff] at hio hjo
    simp only [Span.length, spanOf, Span.startByte_ofRange, Span.endByte_ofRange] at hst htu
    rw [beq_iff_eq, spanOf_eq_iff]
    omega
  refine (pairwise_firstOfRuns hbetween hsorted).imp ?_
  rintro s t ⟨⟨hs, ht, hst⟩, hne⟩
  obtain ⟨i, hi, hio, rfl⟩ := (hmem s).mp hs
  obtain ⟨j, hj, hjo, rfl⟩ := (hmem t).mp ht
  have hle : i.length ≤ j.length := by
    rw [innerFirst_iff] at hst
    show (f.spanOf i).length ≤ (f.spanOf j).length
    omega
  have hji := h i hi j hj hio hjo hle
  refine ⟨(spanOf_contains_iff f j i).mpr hji, ?_⟩
  rw [← Bool.not_eq_true, spanOf_contains_iff]
  intro hij
  refine beq_eq_false_iff_ne.mp hne ((spanOf_eq_iff f j i).mpr ?_)
  unfold NodeInfo.Encloses at hij hji
  omega

/-! ## Hovering -/

theorem shortestAt_eq_none_iff (offset : Nat) (nodes : List NodeInfo) :
    shortestAt offset nodes = none ↔ ∀ i ∈ nodes, i.holds offset = false := by
  rw [← Option.not_isSome_iff_eq_none, shortestAt, List.isSome_minOn?_iff, Decidable.not_not,
    List.filter_eq_nil_iff]
  simp

theorem encloses_shortestAt {offset : Nat} {nodes : List NodeInfo} (h : NestAt offset nodes)
    {i : NodeInfo} (hi : shortestAt offset nodes = some i) :
    i ∈ nodes ∧ i.holds offset = true ∧ ∀ j ∈ nodes, j.holds offset = true → j.Encloses i := by
  obtain ⟨hmem, hio⟩ := List.mem_filter.mp (List.minOn?_mem hi)
  refine ⟨hmem, hio, fun j hj hjo => h i hmem j hj hio hjo ?_⟩
  have hj' : j ∈ nodes.filter (·.holds offset) := List.mem_filter.mpr ⟨hj, hjo⟩
  have hleast := List.apply_get_minOn?_le_of_mem (f := NodeInfo.length) hj'
  unfold shortestAt at hi
  simpa only [hi, Option.get_some] using hleast

/-- **Scopes nest strictly, and hovering shows the innermost node.**  Let every child lie in its
parent and let no two siblings cover a common byte, and let a profile's queries capture any nodes of
such a tree and no others.  The scopes around an offset are exactly the spans of the captured nodes that hold it,
each once, and each lies strictly within every later one.  Nothing is shown if and only if no
captured node holds the offset; otherwise a captured node is shown that holds it and that lies in
every captured node that does. -/
theorem scopes_nest_hover_innermost [QueryEngine] (hengine : QueryEngine.CapturesFromTree)
    (f : SourceFile) (p : Profile) (offset : Nat) (hin : f.root.Enclosing)
    (hspread : f.root.Spread) :
    (∀ matched, f.capturesOf p .scope = .ok matched →
      ∃ scopes, f.enclosingScopes p offset = .ok scopes ∧
        (∀ s, s ∈ scopes ↔ s.containsOffset offset = true ∧
          ∃ i ∈ labelled "scope" matched, f.spanOf i = s) ∧
        scopes.Pairwise Span.StrictlyWithin) ∧
    (∀ matched, f.capturesOf p .hoverable = .ok matched →
      ∃ target, f.hoverTarget p offset = .ok target ∧
        (target = none ↔
          ∀ i ∈ labelled "hover" matched, (f.spanOf i).containsOffset offset = false) ∧
        ∀ t, target = some t → ∃ i ∈ labelled "hover" matched,
          t = ⟨f.collapsedText i, i.kind, f.spanOf i, p.isBuiltinType (f.collapsedText i)⟩ ∧
          t.span.containsOffset offset = true ∧
          ∀ j ∈ labelled "hover" matched, (f.spanOf j).containsOffset offset = true →
            (f.spanOf j).contains t.span = true) := by
  refine ⟨fun matched hmatched => ?_, fun matched hmatched => ?_⟩
  · have hnest := nestAt_labelled hengine hin hspread hmatched "scope" offset
    refine ⟨scopesAt offset ((labelled "scope" matched).map f.spanOf), ?_, fun s => ?_,
      pairwise_scopesAt f hnest⟩
    · unfold enclosingScopes
      rw [hmatched]
      rfl
    · rw [mem_scopesAt_iff]
      constructor
      · rintro ⟨i, hi, hio, rfl⟩
        exact ⟨hio, i, hi, rfl⟩
      · rintro ⟨hs, i, hi, rfl⟩
        exact ⟨i, hi, hs, rfl⟩
  · have hnest := nestAt_labelled hengine hin hspread hmatched "hover" offset
    refine ⟨(shortestAt offset (labelled "hover" matched)).map fun i =>
      ⟨f.collapsedText i, i.kind, f.spanOf i, p.isBuiltinType (f.collapsedText i)⟩, ?_, ?_, ?_⟩
    · unfold hoverTarget
      rw [hmatched]
      rfl
    · rw [Option.map_eq_none_iff, shortestAt_eq_none_iff]
      rfl
    · intro t ht
      obtain ⟨i, hi, rfl⟩ := Option.map_eq_some_iff.mp ht
      obtain ⟨hmem, hio, hothers⟩ := encloses_shortestAt hnest hi
      refine ⟨i, hmem, rfl, hio, fun j hj hjo => ?_⟩
      exact (spanOf_contains_iff f j i).mpr (hothers j hj hjo)

end SourceFile

/-- A language whose queries capture calls and what they are made of. -/
def Profile.calls : Profile where
  id := "notes"
  aliases := []
  extensions := ["txt"]
  defaultGrammar := .ofHandle .python
  otherGrammars := []
  extensionGrammars := []
  testRule := .anyOf []
  queries := ⟨fun name => ⟨name, "notes", 1,
    "(module) @scope (call) @scope @hover (argument_list) @scope (identifier) @hover"⟩⟩
  taxonomy := ⟨[]⟩
  builtinTypes := []
  autoSelect := ["identifier", "argument_list"]

def Node.ofRange (kind : String) (start stop : Nat) (named : Bool) (children : List Node) : Node :=
  .node { (default : NodeInfo) with
    kind := kind, startByte := start, endByte := stop, named := named } children

def SourceFile.call : SourceFile :=
  ⟨"a.txt", "notes", "python", Text.Utf8.encode "f(x)",
    .ofRange "module" 0 4 true [.ofRange "expression_statement" 0 4 true [.ofRange "call" 0 4 true
      [.ofRange "identifier" 0 1 true [],
        .ofRange "argument_list" 1 4 true
          [.ofRange "(" 1 2 false [], .ofRange "identifier" 2 3 true [],
            .ofRange ")" 3 4 false []]]]]⟩

def SourceFile.rangesOf (f : SourceFile) (p : Profile) (name : QueryName) (label : String) :
    Except Failure (List (Nat × Nat)) :=
  (f.capturesOf p name).map fun matched =>
    (labelled label matched).map fun i => (i.startByte, i.endByte)

namespace SourceFile

theorem scopes_nest_hover_innermost_call :
    call.root.Enclosing ∧ call.root.Spread ∧
    call.rangesOf .calls .scope "scope" = .ok [(0, 4), (0, 4), (1, 4)] ∧
    (∃ scopes, call.enclosingScopes .calls 2 = .ok scopes ∧
      (∀ s ∈ scopes, s.containsOffset 2 = true) ∧ scopes.Pairwise Span.StrictlyWithin) ∧
    call.rangesOf .calls .hoverable "hover" = .ok [(0, 4), (0, 1), (2, 3)] ∧
    ∃ t, call.hoverTarget .calls 2 = .ok (some t) ∧ t.span.containsOffset 2 = true := by
  have hin : call.root.Enclosing := by decide
  have hspread : call.root.Spread := by decide
  have hscope : call.rangesOf .calls .scope "scope" = .ok [(0, 4), (0, 4), (1, 4)] := by
    decide +kernel
  have hhover : call.rangesOf .calls .hoverable "hover" = .ok [(0, 4), (0, 1), (2, 3)] := by
    decide +kernel
  obtain ⟨hscopes, htargets⟩ := scopes_nest_hover_innermost
    QueryEngine.interpreter_capturesFromTree call .calls 2 hin hspread
  refine ⟨hin, hspread, hscope, ?_, hhover, ?_⟩
  · obtain ⟨matched, hmatched, -⟩ := exists_of_map_ok hscope
    obtain ⟨scopes, hok, hmem, hchain⟩ := hscopes matched hmatched
    exact ⟨scopes, hok, fun s hs => ((hmem s).mp hs).1, hchain⟩
  · obtain ⟨matched, hmatched, hranges⟩ := exists_of_map_ok hhover
    obtain ⟨target, hok, hnone, hsome⟩ := htargets matched hmatched
    cases target with
    | some t =>
      obtain ⟨-, -, -, ht, -⟩ := hsome t rfl
      exact ⟨t, hok, ht⟩
    | none =>
      -- The node with the bytes from 2 to 3 holds the offset.
      have hx : (2, 3) ∈ (labelled "hover" matched).map fun i => (i.startByte, i.endByte) := by
        rw [hranges]
        decide
      obtain ⟨i, hi, hrange⟩ := List.mem_map.mp hx
      obtain ⟨hstart, hstop⟩ := Prod.mk.inj hrange
      have hnot := hnone.mp rfl i hi
      rw [spanOf_containsOffset, ← Bool.not_eq_true, NodeInfo.holds_iff] at hnot
      omega

end SourceFile

end CodeAtlas
