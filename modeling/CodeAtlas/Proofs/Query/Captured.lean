import CodeAtlas.Navigation
import CodeAtlas.Proofs.Tree.Ranges
import CodeAtlas.Query.Interpreter

/-!
Captured nodes are nodes of the tree.  This is what is asked of an engine where the nodes matter
(`QueryEngine.CapturesFromTree`), and the interpreter has it: its matching goes from nodes to their
children and to their later siblings and nowhere else, so a property that passes on to children holds
of every node that is captured (`CapturesOnly`), and being a node of the tree is such a property.
-/

namespace CodeAtlas

/-- All nodes of all these captures have a property. -/
def CapturesOnly (P : Node → Prop) (found : List Captures) : Prop :=
  ∀ captures ∈ found, ∀ c ∈ captures, P c.2

/-- The engine captures nodes of the tree that it searches and no others. -/
def QueryEngine.CapturesFromTree [QueryEngine] : Prop :=
  ∀ (q : Query) (bytes : List UInt8) (root : Node),
    CapturesOnly (· ∈ root.preorder) ((q.run bytes root).map (·.captures))

namespace Pattern

section

variable {P : Node → Prop}

theorem capturesOnly_nil : CapturesOnly P [] := by
  intro captures h
  cases h

theorem capturesOnly_append {l m : List Captures} (hl : CapturesOnly P l) (hm : CapturesOnly P m) :
    CapturesOnly P (l ++ m) := by
  intro captures h
  rcases List.mem_append.mp h with h | h
  · exact hl captures h
  · exact hm captures h

theorem capturesOnly_cross {here after : List Captures} (hhere : CapturesOnly P here)
    (hafter : CapturesOnly P after) : CapturesOnly P (cross here after) := by
  intro captures h
  obtain ⟨first, hfirst, h⟩ := List.mem_flatMap.mp h
  obtain ⟨second, hsecond, rfl⟩ := List.mem_map.mp h
  intro c hc
  rcases List.mem_append.mp hc with hc | hc
  · exact hhere first hfirst c hc
  · exact hafter second hsecond c hc

theorem capturesOnly_orInstead {first : List Captures} {second : Unit → List Captures}
    (hfirst : CapturesOnly P first) (hsecond : CapturesOnly P (second ())) :
    CapturesOnly P (orInstead first second) := by
  cases first with
  | nil => exact hsecond
  | cons captures rest => exact hfirst

variable {here : Node → List Captures} {ends : NodeInfo → Bool}
  {after : List Node → List Captures}

theorem capturesOnly_takeOne (hhere : ∀ n, P n → CapturesOnly P (here n))
    (hafter : ∀ cs, (∀ c ∈ cs, P c) → CapturesOnly P (after cs)) {cs : List Node}
    (h : ∀ c ∈ cs, P c) : CapturesOnly P (takeOne here ends after cs) := by
  induction cs with
  | nil => exact capturesOnly_nil
  | cons c cs ih =>
    obtain ⟨hc, hcs⟩ := List.forall_mem_cons.mp h
    unfold takeOne
    split
    · split
      · exact capturesOnly_nil
      · exact ih hcs
    · exact capturesOnly_append (capturesOnly_cross (hhere c hc) (hafter cs hcs)) (ih hcs)

theorem capturesOnly_takeMany (hhere : ∀ n, P n → CapturesOnly P (here n))
    (hafter : ∀ cs, (∀ c ∈ cs, P c) → CapturesOnly P (after cs)) {cs : List Node}
    (h : ∀ c ∈ cs, P c) : CapturesOnly P (takeMany here ends after cs) := by
  induction cs with
  | nil => exact capturesOnly_nil
  | cons c cs ih =>
    obtain ⟨hc, hcs⟩ := List.forall_mem_cons.mp h
    unfold takeMany
    split
    · split
      · exact capturesOnly_nil
      · exact ih hcs
    · split
      · exact capturesOnly_cross (hhere c hc) (hafter cs hcs)
      · exact capturesOnly_cross (hhere c hc) (ih hcs)

end

mutual

theorem capturesOnly_atNode {P : Node → Prop} (hdown : ∀ n, P n → ∀ c ∈ n.children, P c)
    (p : Pattern) (n : Node) (hn : P n) : CapturesOnly P (p.atNode n) := by
  cases p with
  | node quantity field labels test absent items =>
    unfold atNode
    split
    · intro captures h
      obtain ⟨below, hbelow, rfl⟩ := List.mem_map.mp h
      intro c hc
      rcases List.mem_append.mp hc with hc | hc
      · obtain ⟨label, -, rfl⟩ := List.mem_map.mp hc
        exact hn
      · exact capturesOnly_amongSiblings hdown items n.children (hdown n hn) below hbelow c hc
    · exact capturesOnly_nil
  | choice quantity branches =>
    unfold atNode
    exact capturesOnly_atNodeAny hdown branches n hn

theorem capturesOnly_atNodeAny {P : Node → Prop} (hdown : ∀ n, P n → ∀ c ∈ n.children, P c)
    (ps : List Pattern) (n : Node) (hn : P n) : CapturesOnly P (atNodeAny ps n) := by
  cases ps with
  | nil =>
    unfold atNodeAny
    exact capturesOnly_nil
  | cons p ps =>
    unfold atNodeAny
    exact capturesOnly_append (capturesOnly_atNode hdown p n hn) (capturesOnly_atNodeAny hdown ps n hn)

theorem capturesOnly_amongSiblings {P : Node → Prop} (hdown : ∀ n, P n → ∀ c ∈ n.children, P c)
    (ps : List Pattern) (cs : List Node) (hcs : ∀ c ∈ cs, P c) :
    CapturesOnly P (amongSiblings ps cs) := by
  cases ps with
  | nil =>
    unfold amongSiblings
    intro captures h
    rw [List.mem_singleton.mp h]
    intro c hc
    cases hc
  | cons p ps =>
    have hhere := capturesOnly_atNode hdown p
    have hafter := capturesOnly_amongSiblings hdown ps
    unfold amongSiblings
    split
    · exact capturesOnly_takeOne hhere hafter hcs
    · exact capturesOnly_orInstead (capturesOnly_takeOne hhere hafter hcs) (hafter cs hcs)
    · exact capturesOnly_takeMany hhere hafter hcs
    · exact capturesOnly_orInstead (capturesOnly_takeMany hhere hafter hcs) (hafter cs hcs)

end

end Pattern

namespace Node

mutual

/-- What passes on to children holds of every node that matching starts at and of its siblings. -/
theorem forall_of_mem_runs {P : Node → Prop} (hdown : ∀ n, P n → ∀ c ∈ n.children, P c)
    (later : List Node) (hlater : ∀ m ∈ later, P m) (n : Node) (hn : P n) :
    ∀ r ∈ runs later n, P r.1 ∧ ∀ m ∈ r.2, P m := by
  cases n with
  | node i cs =>
    intro r hr
    rcases List.mem_cons.mp hr with rfl | hr
    · exact ⟨hn, hlater⟩
    · exact forall_of_mem_runsAll hdown cs (hdown _ hn) r hr

theorem forall_of_mem_runsAll {P : Node → Prop} (hdown : ∀ n, P n → ∀ c ∈ n.children, P c)
    (cs : List Node) (hcs : ∀ c ∈ cs, P c) : ∀ r ∈ runsAll cs, P r.1 ∧ ∀ m ∈ r.2, P m := by
  cases cs with
  | nil =>
    intro r hr
    cases hr
  | cons c cs =>
    obtain ⟨hc, hrest⟩ := List.forall_mem_cons.mp hcs
    intro r hr
    rcases List.mem_append.mp hr with hr | hr
    · exact forall_of_mem_runs hdown cs hrest c hc r hr
    · exact forall_of_mem_runsAll hdown cs hrest r hr

end

end Node

theorem TreeQuery.capturesOnly_run (q : TreeQuery) (bytes : List UInt8) (root : Node) :
    CapturesOnly (· ∈ root.preorder) ((q.run bytes root).map (·.captures)) := by
  have hdown : ∀ n, n ∈ root.preorder → ∀ c ∈ n.children, c ∈ root.preorder :=
    fun n hn c hc => Node.preorder_trans (Node.child_mem_preorder hc) hn
  intro captures h
  obtain ⟨m, hm, rfl⟩ := List.mem_map.mp h
  obtain ⟨⟨n, later⟩, hrun, hm⟩ := List.mem_flatMap.mp hm
  obtain ⟨⟨clause, k⟩, -, hm⟩ := List.mem_flatMap.mp hm
  obtain ⟨captures, hcaptures, rfl⟩ := List.mem_map.mp hm
  obtain ⟨hn, hlater⟩ :=
    Node.forall_of_mem_runs hdown [] (by simp) root root.self_mem_preorder _ hrun
  unfold Clause.atRun at hcaptures
  dsimp only at hcaptures
  split at hcaptures
  · cases hcaptures
  · rename_i p ps _
    have hcross := Pattern.capturesOnly_cross (Pattern.capturesOnly_atNode hdown p n hn)
      (Pattern.capturesOnly_amongSiblings hdown ps later hlater)
    exact hcross captures (List.mem_filter.mp hcaptures).1

theorem QueryEngine.interpreter_capturesFromTree : QueryEngine.interpreter.CapturesFromTree :=
  TreeQuery.capturesOnly_run

namespace SourceFile

variable [QueryEngine]

theorem capturesOnly_capturesOf (hengine : QueryEngine.CapturesFromTree) {f : SourceFile}
    {p : Profile} {name : QueryName} {matched : List Captures}
    (h : f.capturesOf p name = .ok matched) : CapturesOnly (· ∈ f.root.preorder) matched := by
  unfold capturesOf at h
  split at h
  · cases h
  · split at h
    · cases h
    · cases h
      exact hengine _ _ _

theorem mem_preorder_of_labelled (hengine : QueryEngine.CapturesFromTree) {f : SourceFile}
    {p : Profile} {name : QueryName} {matched : List Captures}
    (h : f.capturesOf p name = .ok matched) {label : String} {i : NodeInfo}
    (hi : i ∈ labelled label matched) : ∃ n ∈ f.root.preorder, n.info = i := by
  obtain ⟨c, hc, rfl⟩ := List.mem_map.mp hi
  obtain ⟨captures, hcaptures, hc⟩ := List.mem_flatten.mp (List.mem_filter.mp hc).1
  exact ⟨c.2, capturesOnly_capturesOf hengine h captures hcaptures c hc, rfl⟩

end SourceFile

end CodeAtlas
