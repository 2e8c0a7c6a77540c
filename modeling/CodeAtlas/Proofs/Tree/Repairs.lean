import CodeAtlas.Proofs.Tree.Ranges
import CodeAtlas.Source

/-!
The first repair of a syntax tree.  The mark of a node tells that something was repaired at or below
it, and it may stand where no repair shows.  All that is known of it is `Node.Marked`: it is on every
node from a fault up to the root.  That is enough for the search that passes over unmarked subtrees
and comes back from marked ones in which it finds nothing:

    firstFault? root = root.preorder.find? (·.info.isFault)      (firstFault?_eq_find?)
-/

namespace CodeAtlas

namespace Node

/-- A node with a fault at or below it has the mark; others may have it, too. -/
def Marked (root : Node) : Prop :=
  ∀ n ∈ root.preorder, (∃ m ∈ n.preorder, m.info.isFault = true) → n.info.hasFault = true

instance (root : Node) : Decidable root.Marked :=
  inferInstanceAs (Decidable (∀ n ∈ root.preorder, _ → _))

theorem Marked.below {n root : Node} (h : root.Marked) (hn : n ∈ root.preorder) : n.Marked :=
  fun m hm => h m (preorder_trans hm hn)

theorem Marked.faultless {root : Node} (h : root.Marked) (hmark : root.info.hasFault = false) :
    ∀ n ∈ root.preorder, n.info.isFault = false := by
  intro n hn
  refine Bool.eq_false_iff.mpr fun hfault => ?_
  rw [h root root.self_mem_preorder ⟨n, hn, hfault⟩] at hmark
  cases hmark

theorem firstFaultOf?_eq_find? {cs : List Node}
    (h : ∀ c ∈ cs, firstFault? c = c.preorder.find? (·.info.isFault)) :
    firstFaultOf? cs = (preorderAll cs).find? (·.info.isFault) := by
  induction cs with
  | nil => rfl
  | cons c cs ih =>
    obtain ⟨hc, hcs⟩ := List.forall_mem_cons.mp h
    rw [firstFaultOf?, preorderAll, List.find?_append, hc, ih hcs]
    cases c.preorder.find? (·.info.isFault) <;> rfl

/-- Passing over unmarked subtrees misses nothing. -/
theorem firstFault?_eq_find? {root : Node} (h : root.Marked) :
    firstFault? root = root.preorder.find? (·.info.isFault) := by
  induction root using induct with
  | node i cs ih =>
    have hchildren : firstFaultOf? cs = (preorderAll cs).find? (·.info.isFault) :=
      firstFaultOf?_eq_find? fun c hc => ih c hc (h.below (child_mem_preorder hc))
    rw [firstFault?, preorder, List.find?_cons, info]
    by_cases hfault : i.isFault = true
    · rw [if_pos hfault, hfault]
    · rw [if_neg hfault, Bool.eq_false_iff.mpr hfault]
      by_cases hmark : i.hasFault = true
      · rw [if_pos hmark, hchildren]
      · -- the subtree that is passed over
        have hnone := h.faultless (Bool.eq_false_iff.mpr hmark)
        rw [if_neg hmark, eq_comm, List.find?_eq_none]
        intro n hn
        have hbelow : n ∈ (Node.node i cs).preorder := List.mem_cons_of_mem _ hn
        exact Bool.eq_false_iff.mp (hnone n hbelow)

end Node

namespace SourceFile

theorem fault?_of_marked {f : SourceFile} (h : f.root.info.hasFault = true) :
    f.fault?.map (·.1) =
      some (Location.ofOffset f.bytes ((Node.firstFault? f.root).getD f.root).info.startByte) := by
  unfold fault?
  rw [if_pos h]
  rfl

theorem fault?_eq_none_iff (f : SourceFile) : f.fault? = none ↔ f.root.info.hasFault = false := by
  unfold fault?
  cases h : f.root.info.hasFault <;> simp

/-- **The reported fault is the first one.**  If the mark is on every node from a fault up to the
root, and maybe on others, then the search that passes over unmarked subtrees finds the very node
that comes first in the whole tree.  A file is free of faults exactly if its root has no mark, and
then no node has a fault.  What is reported is the start of the first faulty node, or that of the root
when the mark shows nothing. -/
theorem reported_fault_is_first (f : SourceFile) (h : f.root.Marked) :
    Node.firstFault? f.root = f.root.preorder.find? (·.info.isFault) ∧
    (f.fault? = none ↔ f.root.info.hasFault = false) ∧
    (f.root.info.hasFault = false → ∀ n ∈ f.root.preorder, n.info.isFault = false) ∧
    (∀ n, f.root.preorder.find? (·.info.isFault) = some n →
      f.fault?.map (·.1) = some (Location.ofOffset f.bytes n.info.startByte)) ∧
    (f.root.info.hasFault = true → (∀ n ∈ f.root.preorder, n.info.isFault = false) →
      f.fault?.map (·.1) = some (Location.ofOffset f.bytes f.root.info.startByte)) := by
  have hfirst := Node.firstFault?_eq_find? h
  refine ⟨hfirst, f.fault?_eq_none_iff, h.faultless, fun n hn => ?_, fun hmark hnone => ?_⟩
  · have hfault : n.info.isFault = true := by simpa using List.find?_some hn
    have hmark := h f.root f.root.self_mem_preorder ⟨n, List.mem_of_find?_eq_some hn, hfault⟩
    rw [fault?_of_marked hmark, hfirst, hn]
    rfl
  · have hnothing : f.root.preorder.find? (·.info.isFault) = none :=
      List.find?_eq_none.mpr fun n hn => Bool.eq_false_iff.mp (hnone n hn)
    rw [fault?_of_marked hmark, hfirst, hnothing]
    rfl

/-- A declaration without its semicolon, after a marked expression in which no fault shows. -/
def unfinished : SourceFile where
  path := "a.rs"
  language := "rust"
  grammar := "rust"
  bytes := Text.Utf8.encode "()\nlet x"
  root :=
    let leaf (kind : String) (first last : Nat) : NodeInfo :=
      { (default : NodeInfo) with kind := kind, startByte := first, endByte := last }
    .node { leaf "source_file" 0 8 with hasFault := true }
      [.node { leaf "unit_expression" 0 2 with hasFault := true }
        [.node (leaf "(" 0 1) [], .node (leaf ")" 1 2) []],
      .node { leaf "let_declaration" 3 8 with hasFault := true }
        [.node (leaf "identifier" 7 8) [],
        .node { leaf ";" 8 8 with missing := true, hasFault := true } []]]

theorem reported_fault_is_first_unfinished :
    unfinished.root.Marked ∧ unfinished.fault?.map (·.1) = some ⟨8, 2, 6⟩ := by
  have hmarked : unfinished.root.Marked := by decide
  obtain ⟨-, -, -, hplace, -⟩ := reported_fault_is_first unfinished hmarked
  exact ⟨hmarked, hplace _ rfl⟩

end SourceFile

end CodeAtlas
