import CodeAtlas.Proofs.Navigation.Innermost

/-!
What a click selects.  There are two walks along one path of the tree: down to the offset
(`Node.Descent`), and from the deepest named node on that path up again, past all nodes of a kind that
widens.

    root  …  result  …  start  …  offset
             ←  passed  →|
                         |←  below: not named  →

The walk up ends at the first node of another kind, or at the root (`selection_nearest`).
-/

namespace CodeAtlas

namespace Node

/-! ## Down to an offset -/

/-- The nodes on the way down to an offset: from a node into its first child that holds the offset,
until no child does. -/
inductive Descent (offset : Nat) : Node → List Node → Prop where
  | stop {n : Node} (h : n.children.find? (fun c => c.info.holds offset) = none) :
      Descent offset n [n]
  | enter {n c : Node} {path : List Node}
      (h : n.children.find? (fun c => c.info.holds offset) = some c)
      (below : Descent offset c path) : Descent offset n (n :: path)

theorem Descent.unique {offset : Nat} {n : Node} {path path' : List Node}
    (h : Descent offset n path) (h' : Descent offset n path') : path = path' := by
  induction h generalizing path' with
  | stop hnone =>
    cases h' with
    | stop => rfl
    | enter hsome => rw [hnone] at hsome; cases hsome
  | enter hsome _ ih =>
    cases h' with
    | stop hnone => rw [hnone] at hsome; cases hsome
    | enter hsome' hbelow =>
      obtain rfl := Option.some.inj (hsome.symm.trans hsome')
      rw [ih hbelow]

theorem Descent.head {offset : Nat} {n : Node} {path : List Node} (h : Descent offset n path) :
    ∃ rest, path = n :: rest := by
  cases h with
  | stop => exact ⟨[], rfl⟩
  | enter => exact ⟨_, rfl⟩

theorem Descent.from {offset : Nat} {root n : Node} {above below : List Node}
    (h : Descent offset root (above ++ n :: below)) :
    n ∈ root.preorder ∧ Descent offset n (n :: below) := by
  induction above generalizing root with
  | nil =>
    obtain ⟨rest, heq⟩ := h.head
    cases heq
    exact ⟨n.self_mem_preorder, h⟩
  | cons a above ih =>
    generalize hpath : a :: above ++ n :: below = path at h
    cases h with
    | stop => simp at hpath
    | enter hfound hbelow =>
      obtain ⟨-, rfl⟩ := List.cons.inj hpath
      obtain ⟨hmem, hfrom⟩ := ih hbelow
      have hchild := child_mem_preorder (List.mem_of_find?_eq_some hfound)
      exact ⟨preorder_trans hmem hchild, hfrom⟩

theorem Descent.below_head {offset : Nat} {n m : Node} {rest : List Node}
    (h : Descent offset n (n :: rest)) (hm : m ∈ rest) : m ∈ preorderAll n.children := by
  cases h with
  | stop => cases hm
  | enter hfound hbelow =>
    obtain ⟨above, below, rfl⟩ := List.append_of_mem hm
    have hmem := hbelow.from.1
    exact (mem_preorderAll m _).mpr ⟨_, List.mem_of_find?_eq_some hfound, hmem⟩

theorem pathIn_eq (offset : Nat) (cs : List Node) :
    pathIn offset cs =
      ((cs.find? (fun c => c.info.holds offset)).map (pathAt offset)).getD [] := by
  induction cs with
  | nil => rfl
  | cons c cs ih =>
    by_cases hc : c.info.holds offset = true
    · simp [pathIn, hc]
    · simp [pathIn, hc, ih]

theorem exists_descent (offset : Nat) (n : Node) :
    ∃ path, Descent offset n path ∧ pathAt offset n = path.map info := by
  induction n using induct with
  | node i cs ih =>
    cases hfind : cs.find? (fun c => c.info.holds offset) with
    | none =>
      refine ⟨[.node i cs], .stop hfind, ?_⟩
      rw [pathAt, pathIn_eq, hfind]
      rfl
    | some c =>
      obtain ⟨path, hdescent, hpath⟩ := ih c (List.mem_of_find?_eq_some hfind)
      refine ⟨.node i cs :: path, .enter hfind hdescent, ?_⟩
      rw [pathAt, pathIn_eq, hfind, List.map_cons, ← hpath]
      rfl

/-! ## The node at an offset -/

/-- `start` is the last named node on the way down to an offset, or the root when no other is named;
`above` leads to it from the root. -/
structure StartsAt (offset : Nat) (root : Node) (above : List Node) (start : Node) : Prop where
  deepest : ∃ below, Descent offset root (above ++ start :: below) ∧
    ∀ n ∈ below, n.info.named = false
  named : start.info.named = true ∨ above = []

/-- Behind the last named node of a path no other can be the last named one. -/
theorem not_later_named {above above' below below' : List Node} {start start' : Node}
    (hbelow : ∀ n ∈ below, n.info.named = false)
    (hnamed : start'.info.named = true ∨ above' = []) {between : List Node}
    (habove : above' = above ++ between) (h : start :: below = between ++ start' :: below') :
    above = above' ∧ start = start' := by
  cases between with
  | nil =>
    cases h
    exact ⟨by rw [habove, List.append_nil], rfl⟩
  | cons x between =>
    obtain ⟨-, hrest⟩ := List.cons.inj h
    have hunnamed := hbelow start' (by rw [hrest]; simp)
    rcases hnamed with hn | hnil
    · rw [hunnamed] at hn
      cases hn
    · rw [hnil] at habove
      simp at habove

theorem StartsAt.unique {offset : Nat} {root : Node} {above above' : List Node}
    {start start' : Node} (h : StartsAt offset root above start)
    (h' : StartsAt offset root above' start') : above = above' ∧ start = start' := by
  obtain ⟨⟨below, hdescent, hbelow⟩, hnamed⟩ := h
  obtain ⟨⟨below', hdescent', hbelow'⟩, hnamed'⟩ := h'
  rcases List.append_eq_append_iff.mp (hdescent.unique hdescent') with ⟨between, ha, hb⟩ |
    ⟨between, ha, hb⟩
  · exact not_later_named hbelow hnamed' ha hb
  · obtain ⟨hab, hstart⟩ := not_later_named hbelow' hnamed ha hb
    exact ⟨hab.symm, hstart.symm⟩

/-- A node on the path from the root to the start is the start or has it below. -/
theorem StartsAt.of_split {offset : Nat} {root start result : Node} {above upper passed : List Node}
    (h : StartsAt offset root above start) (hsplit : above ++ [start] = upper ++ result :: passed) :
    result ∈ root.preorder ∧ (upper = [] → result = root) ∧
      ((passed = [] ∧ start = result) ∨
        (passed ≠ [] ∧ start ∈ preorderAll result.children)) := by
  obtain ⟨⟨below, hdescent, -⟩, -⟩ := h
  have hpath : above ++ start :: below = upper ++ result :: (passed ++ below) := by
    rw [← List.cons_append, ← List.append_assoc, ← hsplit]
    simp
  rw [hpath] at hdescent
  obtain ⟨hmem, hfrom⟩ := hdescent.from
  refine ⟨hmem, ?_, ?_⟩
  · rintro rfl
    obtain ⟨rest, heq⟩ := hdescent.head
    exact (List.cons.inj heq).1
  · have hlast := congrArg List.getLast? hsplit
    rw [List.getLast?_concat, List.getLast?_append, List.getLast?_cons, Option.some_or] at hlast
    rcases List.eq_nil_or_concat passed with rfl | ⟨init, last, rfl⟩
    · exact Or.inl ⟨rfl, Option.some.inj hlast⟩
    · refine Or.inr ⟨by simp, hfrom.below_head ?_⟩
      rw [List.concat_eq_append, List.getLast?_concat] at hlast
      rw [Option.some.inj hlast]
      simp

end Node

namespace SourceFile

open Node

/-- The path that selection goes up starts at the node at the offset and ends at the root. -/
theorem exists_startsAt (root : Node) (offset : Nat) : ∃ above start,
    StartsAt offset root above start ∧
      namedPath root offset = (start :: above.reverse).map info := by
  obtain ⟨path, hdescent, hpath⟩ := exists_descent offset root
  obtain ⟨entered, rfl⟩ := hdescent.head
  have hlist : namedPath root offset =
      (entered.reverse.dropWhile (fun n => !n.info.named)).map info ++ [root.info] := by
    unfold namedPath
    rw [hpath, List.map_cons]
    dsimp only
    rw [← List.map_reverse, List.dropWhile_map]
    rfl
  have hsplit := List.takeWhile_append_dropWhile (p := fun n : Node => !n.info.named)
    (l := entered.reverse)
  have hskipped : ∀ n ∈ entered.reverse.takeWhile (fun n => !n.info.named),
      n.info.named = false := by
    intro n hn
    simpa using List.all_eq_true.mp List.all_takeWhile n hn
  generalize entered.reverse.takeWhile (fun n => !n.info.named) = skipped at hsplit hskipped
  cases hdrop : entered.reverse.dropWhile (fun n => !n.info.named) with
  | nil =>
    -- Nothing that was entered is named.
    rw [hdrop, List.append_nil] at hsplit
    refine ⟨[], root, ⟨⟨entered, hdescent, fun n hn => hskipped n ?_⟩, Or.inr rfl⟩, ?_⟩
    · rw [hsplit]
      exact List.mem_reverse.mpr hn
    · rw [hlist, hdrop]
      rfl
  | cons start outer =>
    have hstart : start.info.named = true := by
      have hne : entered.reverse.dropWhile (fun n => !n.info.named) ≠ [] := by simp [hdrop]
      have := List.head_dropWhile_not (fun n : Node => !n.info.named) hne
      simpa [hdrop] using this
    have hentered : entered = outer.reverse ++ start :: skipped.reverse := by
      rw [← List.reverse_inj, ← hsplit, hdrop]
      simp
    refine ⟨root :: outer.reverse, start, ⟨⟨skipped.reverse, ?_, fun n hn => ?_⟩, Or.inl hstart⟩, ?_⟩
    · rw [List.cons_append, ← hentered]
      exact hdescent
    · exact hskipped n (List.mem_reverse.mp hn)
    · rw [hlist, hdrop]
      simp

/-! ## Up again -/

/-- Widening passes nodes of kinds that widen and stops at the first of another kind, or at the last
node. -/
theorem exists_widen (widens : String → Bool) (moved : Bool) (n : Node) (rest : List Node) :
    ∃ passed result upper, n :: rest = passed ++ result :: upper ∧
      (∀ m ∈ passed, widens m.info.kind = true) ∧
      (widens result.info.kind = false ∨ upper = []) ∧
      widen widens moved ((n :: rest).map info) = some (result.info, moved || !passed.isEmpty) := by
  induction rest generalizing n moved with
  | nil => exact ⟨[], n, [], rfl, by simp, Or.inr rfl, by simp [widen]⟩
  | cons next rest ih =>
    by_cases hn : widens n.info.kind = true
    · obtain ⟨passed, result, upper, hsplit, hpassed, hstops, hwiden⟩ := ih true next
      refine ⟨n :: passed, result, upper, by rw [hsplit]; rfl, ?_, hstops, ?_⟩
      · intro m hm
        rcases List.mem_cons.mp hm with rfl | hm
        · exact hn
        · exact hpassed m hm
      · rw [List.map_cons, List.map_cons, widen, if_pos hn, ← List.map_cons, hwiden]
        simp
    · refine ⟨[], n, next :: rest, rfl, by simp, Or.inl (Bool.eq_false_iff.mpr hn), ?_⟩
      rw [List.map_cons, List.map_cons, widen, if_neg hn]
      simp

/-- **Selection goes up to the nearest node of a kind that does not widen.**  At every offset of every
tree there is one node to start at, the last named one on the way down to the offset.  For every set
of kinds that widen, something is selected: a node on the path from the root to the start such that
all nodes after it on this path widen, and which does not widen itself or is the root, with all nodes
of the path widening.  The selection says that it went up if and only if the start lies below the
node that was selected.  When every child lies in its parent, the selected span contains that of the
start. -/
theorem selection_nearest (f : SourceFile) (p : Profile) (offset : Nat) :
    (∃ above start, StartsAt offset f.root above start) ∧
    ∀ above start, StartsAt offset f.root above start →
      ∃ upper result passed moved, above ++ [start] = upper ++ result :: passed ∧
        (∀ n ∈ passed, n.info.kind ∈ p.autoSelect) ∧
        (result.info.kind ∉ p.autoSelect ∨
          (result = f.root ∧ ∀ n ∈ above ++ [start], n.info.kind ∈ p.autoSelect)) ∧
        f.selection p offset = some ⟨result.info.kind, f.spanOf result.info, moved⟩ ∧
        (moved = true ↔ start ∈ preorderAll result.children) ∧
        (f.root.Enclosing → (f.spanOf result.info).contains (f.spanOf start.info) = true) := by
  obtain ⟨above, start, hstart, hpath⟩ := exists_startsAt f.root offset
  refine ⟨⟨above, start, hstart⟩, fun above' start' hstart' => ?_⟩
  obtain ⟨rfl, rfl⟩ := hstart.unique hstart'
  obtain ⟨passed, result, upper, hsplit, hpassed, hstops, hwiden⟩ :=
    exists_widen p.widens false start above.reverse
  have hroute : above ++ [start] = upper.reverse ++ result :: passed.reverse := by
    rw [← List.reverse_inj]
    simpa using hsplit
  obtain ⟨hmem, hroot, hplace⟩ := hstart.of_split hroute
  have hselects : ∀ n : Node, p.widens n.info.kind = true ↔ n.info.kind ∈ p.autoSelect := by
    intro n
    simp [Profile.widens]
  refine ⟨upper.reverse, result, passed.reverse, !passed.isEmpty, hroute, ?_, ?_, ?_, ?_, ?_⟩
  · intro n hn
    exact (hselects n).mp (hpassed n (List.mem_reverse.mp hn))
  · by_cases hresult : p.widens result.info.kind = true
    · -- widening ends at a kind that widens only where the path ends
      have hupper : upper = [] := hstops.resolve_left (by simp [hresult])
      refine Or.inr ⟨hroot (by simp [hupper]), fun n hn => (hselects n).mp ?_⟩
      rw [hroute, hupper] at hn
      rcases List.mem_cons.mp hn with rfl | hn
      · exact hresult
      · exact hpassed n (List.mem_reverse.mp hn)
    · exact Or.inl (by rwa [← hselects])
  · unfold selection
    rw [hpath, hwiden]
    simp
  · rcases hplace with ⟨hnil, rfl⟩ | ⟨hne, hbelow⟩
    · exact iff_of_false (by simpa using hnil) start.not_below_self
    · exact iff_of_true (by simpa using hne) hbelow
  · intro hin
    rw [spanOf_contains_iff]
    rcases hplace with ⟨-, rfl⟩ | ⟨-, hbelow⟩
    · exact .refl _
    · exact (hin.below hmem).encloses ((mem_preorder start result).mpr (Or.inr hbelow))

theorem selection_nearest_call :
    call.root.Enclosing ∧ call.selection .calls 2 = some ⟨"call", ⟨0, 4, 1, 1, 1, 5⟩, true⟩ ∧
    ∃ above start, StartsAt 2 call.root above start ∧
      (⟨0, 4, 1, 1, 1, 5⟩ : Span).contains (call.spanOf start.info) = true := by
  have hin : call.root.Enclosing := by decide
  have hselection : call.selection .calls 2 = some ⟨"call", ⟨0, 4, 1, 1, 1, 5⟩, true⟩ := by
    decide +kernel
  obtain ⟨⟨above, start, hstart⟩, hall⟩ := selection_nearest call .calls 2
  obtain ⟨upper, result, passed, moved, -, -, -, hselected, -, hspan⟩ := hall above start hstart
  refine ⟨hin, hselection, above, start, hstart, ?_⟩
  have hsame := Option.some.inj (hselection.symm.trans hselected)
  have hresult := congrArg Selection.span hsame
  dsimp only at hresult
  rw [hresult]
  exact hspan hin

end SourceFile

end CodeAtlas
