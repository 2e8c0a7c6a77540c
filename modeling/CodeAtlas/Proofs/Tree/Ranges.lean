import CodeAtlas.Tree.Node

/-!
Ranges in a syntax tree.  Two facts about neighbours are all that is known of the ranges: a child lies
in its parent (`Node.Enclosing`), and siblings cover no common byte (`Node.Spread`).  They carry over
to any two nodes of the tree: of two that cover the same byte, one encloses the other
(`nested_of_holds`).
-/

namespace CodeAtlas

namespace NodeInfo

/-- The range of `j` lies in that of `i`. -/
def Encloses (i j : NodeInfo) : Prop :=
  i.startByte ≤ j.startByte ∧ j.endByte ≤ i.endByte

def Apart (i j : NodeInfo) : Prop :=
  min i.endByte j.endByte ≤ max i.startByte j.startByte

instance (i j : NodeInfo) : Decidable (i.Encloses j) :=
  inferInstanceAs (Decidable (_ ∧ _))

instance (i j : NodeInfo) : Decidable (i.Apart j) :=
  inferInstanceAs (Decidable (_ ≤ _))

theorem Encloses.refl (i : NodeInfo) : i.Encloses i :=
  ⟨Nat.le_refl _, Nat.le_refl _⟩

theorem Encloses.trans {i j k : NodeInfo} (hij : i.Encloses j) (hjk : j.Encloses k) :
    i.Encloses k := by
  unfold Encloses at *
  omega

theorem holds_iff (i : NodeInfo) (offset : Nat) :
    i.holds offset = true ↔ i.startByte ≤ offset ∧ offset < i.endByte := by
  simp [holds]

theorem Encloses.holds {i j : NodeInfo} (h : i.Encloses j) {offset : Nat}
    (hj : j.holds offset = true) : i.holds offset = true := by
  rw [holds_iff] at *
  unfold Encloses at h
  omega

theorem Apart.not_holds {i j : NodeInfo} (h : i.Apart j) {offset : Nat}
    (hi : i.holds offset = true) : ¬ j.holds offset = true := by
  rw [holds_iff] at *
  unfold Apart at h
  omega

end NodeInfo

namespace Node

/-! ## Nodes of a tree -/

theorem sizeOf_child_lt {i : NodeInfo} {cs : List Node} {c : Node} (h : c ∈ cs) :
    sizeOf c < sizeOf (node i cs) := by
  have := List.sizeOf_lt_of_mem h
  simp only [node.sizeOf_spec]
  omega

/-- Induction over trees. -/
theorem induct {P : Node → Prop} (node : ∀ i cs, (∀ c ∈ cs, P c) → P (.node i cs)) (n : Node) :
    P n := by
  cases n with
  | node i cs => exact node i cs fun c _ => induct node c
termination_by sizeOf n
decreasing_by exact sizeOf_child_lt ‹c ∈ cs›

theorem mem_preorderAll (n : Node) (cs : List Node) :
    n ∈ preorderAll cs ↔ ∃ c ∈ cs, n ∈ c.preorder := by
  induction cs with
  | nil => simp [preorderAll]
  | cons c cs ih => simp [preorderAll, ih]

theorem mem_preorder (n root : Node) :
    n ∈ root.preorder ↔ n = root ∨ n ∈ preorderAll root.children := by
  cases root with
  | node i cs => simp [preorder, children]

theorem self_mem_preorder (n : Node) : n ∈ n.preorder :=
  (mem_preorder n n).mpr (Or.inl rfl)

theorem child_mem_preorder {n c : Node} (h : c ∈ n.children) : c ∈ n.preorder :=
  (mem_preorder c n).mpr (Or.inr ((mem_preorderAll c n.children).mpr ⟨c, h, c.self_mem_preorder⟩))

theorem preorder_trans {m n root : Node} (hm : m ∈ n.preorder) (hn : n ∈ root.preorder) :
    m ∈ root.preorder := by
  induction root using induct with
  | node i cs ih =>
    rcases (mem_preorder n _).mp hn with rfl | hbelow
    · exact hm
    · obtain ⟨c, hc, hnc⟩ := (mem_preorderAll n cs).mp hbelow
      exact (mem_preorder m _).mpr (Or.inr ((mem_preorderAll m cs).mpr ⟨c, hc, ih c hc hnc⟩))

theorem sizeOf_lt_of_below {n root : Node} (h : n ∈ preorderAll root.children) :
    sizeOf n < sizeOf root := by
  induction root using induct with
  | node i cs ih =>
    obtain ⟨c, hc, hn⟩ := (mem_preorderAll n cs).mp h
    have hlt : sizeOf c < sizeOf (Node.node i cs) := sizeOf_child_lt hc
    rcases (mem_preorder n c).mp hn with rfl | hbelow
    · exact hlt
    · have := ih c hc hbelow
      omega

theorem not_below_self (n : Node) : n ∉ preorderAll n.children :=
  fun h => Nat.lt_irrefl _ (sizeOf_lt_of_below h)

/-! ## Ranges -/

/-- Every child's range lies in that of its parent. -/
def Enclosing (root : Node) : Prop :=
  ∀ n ∈ root.preorder, ∀ c ∈ n.children, n.info.Encloses c.info

def Spread (root : Node) : Prop :=
  ∀ n ∈ root.preorder, n.children.Pairwise (fun a b => a.info.Apart b.info)

instance (root : Node) : Decidable root.Enclosing :=
  inferInstanceAs (Decidable (∀ n ∈ root.preorder, ∀ c ∈ n.children, n.info.Encloses c.info))

instance (root : Node) : Decidable root.Spread :=
  inferInstanceAs (Decidable (∀ n ∈ root.preorder, n.children.Pairwise _))

theorem Enclosing.below {n root : Node} (h : root.Enclosing) (hn : n ∈ root.preorder) :
    n.Enclosing :=
  fun m hm => h m (preorder_trans hm hn)

theorem Spread.below {n root : Node} (h : root.Spread) (hn : n ∈ root.preorder) : n.Spread :=
  fun m hm => h m (preorder_trans hm hn)

theorem Enclosing.encloses {n root : Node} (h : root.Enclosing) (hn : n ∈ root.preorder) :
    root.info.Encloses n.info := by
  induction root using induct with
  | node i cs ih =>
    rcases (mem_preorder n _).mp hn with rfl | hbelow
    · exact .refl _
    · obtain ⟨c, hc, hnc⟩ := (mem_preorderAll n cs).mp hbelow
      have hchild : c ∈ (Node.node i cs).preorder := child_mem_preorder hc
      have hic := h _ (self_mem_preorder _) c hc
      exact hic.trans (ih c hc (h.below hchild) hnc)

theorem eq_of_holds {cs : List Node} (h : cs.Pairwise (fun a b => a.info.Apart b.info)) {a b : Node}
    (ha : a ∈ cs) (hb : b ∈ cs) {offset : Nat} (hao : a.info.holds offset = true)
    (hbo : b.info.holds offset = true) : a = b := by
  induction cs with
  | nil => cases ha
  | cons c cs ih =>
    obtain ⟨hfirst, hrest⟩ := List.pairwise_cons.mp h
    rcases List.mem_cons.mp ha with rfl | ha'
    · rcases List.mem_cons.mp hb with rfl | hb'
      · rfl
      · exact absurd hbo ((hfirst b hb').not_holds hao)
    · rcases List.mem_cons.mp hb with rfl | hb'
      · exact absurd hao ((hfirst a ha').not_holds hbo)
      · exact ih hrest ha' hb'

/-- Of two nodes that cover the same byte, one encloses the other. -/
theorem nested_of_holds {m n root : Node} (hin : root.Enclosing) (hspread : root.Spread)
    (hm : m ∈ root.preorder) (hn : n ∈ root.preorder) {offset : Nat}
    (hmo : m.info.holds offset = true) (hno : n.info.holds offset = true) :
    m.info.Encloses n.info ∨ n.info.Encloses m.info := by
  induction root using induct with
  | node i cs ih =>
    rcases (mem_preorder m _).mp hm with rfl | hm'
    · exact Or.inl (hin.encloses hn)
    · rcases (mem_preorder n _).mp hn with rfl | hn'
      · exact Or.inr (hin.encloses hm)
      · obtain ⟨a, ha, hma⟩ := (mem_preorderAll m cs).mp hm'
        obtain ⟨b, hb, hnb⟩ := (mem_preorderAll n cs).mp hn'
        have ha' : a ∈ (Node.node i cs).preorder := child_mem_preorder ha
        have hb' : b ∈ (Node.node i cs).preorder := child_mem_preorder hb
        -- The children above both nodes cover the byte as well, so they are the same child.
        have hao := ((hin.below ha').encloses hma).holds hmo
        have hbo := ((hin.below hb').encloses hnb).holds hno
        obtain rfl := eq_of_holds (hspread _ (self_mem_preorder _)) ha hb hao hbo
        exact ih a ha (hin.below ha') (hspread.below ha') hma hnb

end Node

end CodeAtlas
