import CodeAtlas.Proofs.Text.Spacing
import CodeAtlas.Text.Annotation

/-!
Lists of bases.  A heritage text is cut into items at its commas, and at the word `implements`
between two spaces; each item gives the base that its words spell, less the keywords.

    bases? "( Base, public Mixin )"    items "Base", " public Mixin"    bases Base, Mixin
    bases? "( Base, Mixin, )"          items "Base", " Mixin", ""       bases Base, Mixin and ""

Every base is collapsed and without a comma, but it can be empty.  What comes out is a list of bases
if and only if every item names one (`isBaseList_bases?_iff`).
-/

namespace CodeAtlas.Text

/-! ## Replacing -/

/-- What follows an occurrence, after the character at which it was found. -/
theorem drop_of_stripLead? {old cs rest : List Char} {c : Char} (hne : old ≠ [])
    (h : stripLead? old (c :: cs) = some rest) : cs.drop (old.length - 1) = rest := by
  obtain ⟨a, as, rfl⟩ := List.exists_cons_of_ne_nil hne
  obtain ⟨-, rfl⟩ := List.cons.inj (eq_append_of_stripLead? h)
  rw [List.length_cons, Nat.add_sub_cancel]
  exact List.drop_left

/-- Replacing a text that ends in a space by a comma and a space keeps single spacing: what follows
an occurrence starts with no blank, and neither does its image. -/
theorem singleSpaced_replaceFrom {old cs : List Char} (hold : old.getLast? = some ' ') (skip : Nat)
    (h : SingleSpaced cs) :
    SingleSpaced (replaceFrom old ", ".toList skip cs) ∧
      ((∀ c ∈ (cs.drop skip).head?, isBlank c = false) →
        ∀ c ∈ (replaceFrom old ", ".toList skip cs).head?, isBlank c = false) := by
  fun_induction replaceFrom old ", ".toList skip cs with
  | case1 => exact ⟨singleSpaced_nil, by simp⟩
  | case2 skip c cs ih => exact ih h.tail
  | case3 c cs hmatch ih =>
    obtain ⟨rest, hstrip⟩ := Option.isSome_iff_exists.mp hmatch
    have hcs := eq_append_of_stripLead? hstrip
    -- the occurrence ends in a space, so no blank follows it
    have hafter : ∀ d ∈ (cs.drop (old.length - 1)).head?, isBlank d = false := by
      intro d hd
      rw [drop_of_stripLead? (by rintro rfl; simp at hold) hstrip] at hd
      have hchain := h.apart
      rw [hcs, List.isChain_append] at hchain
      simpa [isBlank_space] using hchain.2.2 ' ' hold d hd
    obtain ⟨hspaced, hhead⟩ := ih h.tail
    refine ⟨(hspaced.cons_space (hhead hafter)).cons_unblank (by decide), fun _ d hd => ?_⟩
    obtain rfl : ',' = d := by simpa using hd
    decide
  | case4 c cs hmatch ih =>
    obtain ⟨hspaced, hhead⟩ := ih h.tail
    refine ⟨hspaced.cons (h.spaces c List.mem_cons_self) fun d hd => ?_, by simp⟩
    by_cases hc : isBlank c = false
    · exact .inl hc
    · refine .inr (hhead (fun x hx => ?_) d hd)
      have := (List.isChain_cons.mp h.apart).1 x hx
      exact this.resolve_left hc

/-! ## Items of a heritage text -/

theorem stripTail?_eq_some_iff {tail cs body : List Char} :
    stripTail? tail cs = some body ↔ cs = body ++ tail := by
  rw [stripTail?, Option.map_eq_some_iff]
  constructor
  · rintro ⟨back, hback, rfl⟩
    rw [← List.reverse_reverse cs, eq_append_of_stripLead? hback, List.reverse_append,
      List.reverse_reverse]
  · rintro rfl
    refine ⟨body.reverse, ?_, List.reverse_reverse body⟩
    rw [List.reverse_append, stripLead?_append]

/-- A text without one pair of parentheses around it, if it has one. -/
def unwrapped (cs : List Char) : List Char :=
  if cs.head? = some '(' ∧ cs.getLast? = some ')' then cs.tail.dropLast else cs

theorem unwrapped_part (cs : List Char) : unwrapped cs <:+: cs := by
  unfold unwrapped
  split
  · exact (List.dropLast_prefix _).isInfix.trans (List.tail_suffix _).isInfix
  · exact List.infix_rfl

theorem dropParens_cases (cs : List Char) :
    dropParens cs = unwrapped cs ∨ dropParens cs = trimChars (unwrapped cs) := by
  unfold dropParens unwrapped
  split
  · rename_i inner hlead
    obtain rfl := eq_append_of_stripLead? hlead
    split
    · rename_i body htail
      obtain rfl := stripTail?_eq_some_iff.mp htail
      have hlast : (['('] ++ (body ++ [')'])).getLast? = some ')' := by
        rw [← List.append_assoc, List.getLast?_concat]
      right
      rw [if_pos ⟨rfl, hlast⟩]
      simp
    · rename_i hopen
      left
      rw [if_neg]
      rintro ⟨-, hlast⟩
      cases inner using List.reverseRecOn with
      | nil => simp at hlast
      | append_singleton body c =>
        rw [← List.append_assoc, List.getLast?_concat] at hlast
        obtain rfl := Option.some.inj hlast
        have hclosed : stripTail? [')'] (body ++ [')']) = some body :=
          stripTail?_eq_some_iff.mpr rfl
        rw [hclosed] at hopen
        cases hopen
  · rename_i hopen
    left
    rw [if_neg]
    rintro ⟨hhead, -⟩
    obtain ⟨rest, rfl⟩ := List.head?_eq_some_iff.mp hhead
    cases hopen

theorem dropParens_part (cs : List Char) : dropParens cs <:+: cs := by
  rcases dropParens_cases cs with h | h <;> rw [h]
  · exact unwrapped_part cs
  · exact (trimChars_part _).trans (unwrapped_part cs)

theorem heritageBody_part (cs : List Char) : heritageBody cs <:+: cs :=
  (dropParens_part _).trans
    ((trimChars_part _).trans (List.dropWhile_suffix fun c => c == ':').isInfix)

/-- The items of a heritage text, between its commas and the words that stand for one. -/
def heritageItems (s : String) : List (List Char) :=
  pieces (· == ',')
    (replaceFrom " implements ".toList ", ".toList 0 (heritageBody (collapseChars s.toList)))

/-- An item with a word that is no keyword. -/
def NamesBase (item : List Char) : Prop :=
  ∃ w ∈ words item, isHeritageKeyword w = false

instance (item : List Char) : Decidable (NamesBase item) :=
  inferInstanceAs (Decidable (∃ w ∈ words item, isHeritageKeyword w = false))

theorem singleSpaced_of_mem_heritageItems {s : String} {item : List Char}
    (h : item ∈ heritageItems s) : SingleSpaced item := by
  have hbody := (collapsed_collapseChars s.toList).singleSpaced.part (heritageBody_part _)
  have hspaced : SingleSpaced (replaceFrom " implements ".toList ", ".toList 0
      (heritageBody (collapseChars s.toList))) :=
    (singleSpaced_replaceFrom (by decide) 0 hbody).1
  rw [heritageItems] at h
  exact hspaced.part (infix_of_mem_pieces h)

theorem comma_not_mem_of_mem_heritageItems {s : String} {item : List Char}
    (h : item ∈ heritageItems s) : ',' ∉ item := by
  intro hcomma
  simpa using not_sep_of_mem_pieces h ',' hcomma

theorem heritageItems_ne_nil (s : String) : heritageItems s ≠ [] :=
  pieces_ne_nil _ _

/-! ## Bases -/

structure IsBase (b : List Char) : Prop where
  ne_nil : b ≠ []
  collapsed : Collapsed b
  unlisted : ',' ∉ b

theorem baseOf_eq {item : List Char} (h : SingleSpaced item) :
    baseOf item = [' '].intercalate ((words item).filter (fun w => !isHeritageKeyword w)) := by
  obtain ⟨lead, trail, hlead, htrail, hpieces⟩ := h.pieces_eq
  rw [baseOf, hpieces, List.filter_append, List.filter_append]
  refine trimChars_intercalate (fun w hw => hlead w (List.mem_of_mem_filter hw)) (fun w hw => ?_)
    fun w hw => htrail w (List.mem_of_mem_filter hw)
  exact isWord_of_mem_words (List.mem_of_mem_filter hw)

theorem baseOf_eq_nil_iff {item : List Char} (h : SingleSpaced item) :
    baseOf item = [] ↔ ¬ NamesBase item := by
  have hword : ∀ w ∈ (words item).filter (fun w => !isHeritageKeyword w), IsWord w :=
    fun w hw => isWord_of_mem_words (List.mem_of_mem_filter hw)
  have hnil : baseOf item = [] ↔ (words item).filter (fun w => !isHeritageKeyword w) = [] := by
    rw [baseOf_eq h]
    constructor
    · intro heq
      rw [← words_intercalate_words hword, heq]
      rfl
    · intro heq
      rw [heq, List.intercalate_nil]
  rw [hnil, List.filter_eq_nil_iff]
  simp [NamesBase]

theorem collapsed_baseOf {item : List Char} (h : SingleSpaced item) : Collapsed (baseOf item) := by
  rw [baseOf_eq h]
  exact collapsed_intercalate fun w hw => isWord_of_mem_words (List.mem_of_mem_filter hw)

theorem mem_intercalate {sep : List Char} {ws : List (List Char)} {c : Char}
    (h : c ∈ sep.intercalate ws) : c ∈ sep ∨ ∃ w ∈ ws, c ∈ w := by
  induction ws with
  | nil => simp at h
  | cons w ws ih =>
    by_cases hnil : ws = []
    · rw [hnil, List.intercalate_singleton] at h
      exact .inr ⟨w, List.mem_cons_self, h⟩
    · rw [List.intercalate_cons_of_ne_nil hnil, List.mem_append, List.mem_append] at h
      rcases h with (hw | hsep) | hrest
      · exact .inr ⟨w, List.mem_cons_self, hw⟩
      · exact .inl hsep
      · obtain hsep | ⟨v, hv, hc⟩ := ih hrest
        · exact .inl hsep
        · exact .inr ⟨v, List.mem_cons_of_mem w hv, hc⟩

theorem comma_not_mem_baseOf {s : String} {item : List Char} (h : item ∈ heritageItems s) :
    ',' ∉ baseOf item := by
  rw [baseOf_eq (singleSpaced_of_mem_heritageItems h)]
  intro hcomma
  obtain hspace | ⟨w, hw, hc⟩ := mem_intercalate hcomma
  · simp at hspace
  · have hpiece := List.mem_of_mem_filter (List.mem_of_mem_filter hw)
    exact comma_not_mem_of_mem_heritageItems h ((infix_of_mem_pieces hpiece).subset hc)

theorem isBase_baseOf_iff {s : String} {item : List Char} (h : item ∈ heritageItems s) :
    IsBase (baseOf item) ↔ NamesBase item := by
  have hspaced := singleSpaced_of_mem_heritageItems h
  have hnil := baseOf_eq_nil_iff hspaced
  constructor
  · intro hbase
    by_contra hnone
    exact hbase.ne_nil (hnil.mpr hnone)
  · intro hnames
    exact ⟨fun heq => hnil.mp heq hnames, collapsed_baseOf hspaced, comma_not_mem_baseOf h⟩

/-! ## Lists of bases -/

/-- Bases with a comma and a space between two; there is at least one. -/
def IsBaseList (s : String) : Prop :=
  ∃ bases : List (List Char), bases ≠ [] ∧ (∀ b ∈ bases, IsBase b) ∧
    s.toList = ", ".toList.intercalate bases

/-- A list without commas in its members, cut at the commas. -/
theorem pieces_intercalate {x : List Char} {xs : List (List Char)}
    (h : ∀ w ∈ x :: xs, ',' ∉ w) :
    pieces (· == ',') (", ".toList.intercalate (x :: xs)) = x :: xs.map (' ' :: ·) := by
  have hcut : ∀ w : List Char, ',' ∉ w → w.splitOnP (· == ',') = [w] := by
    intro w hw
    refine List.splitOnP_eq_singleton fun c hc => beq_eq_false_iff_ne.mpr ?_
    rintro rfl
    exact hw hc
  induction xs generalizing x with
  | nil =>
    rw [List.intercalate_singleton, pieces_eq_splitOnP, hcut x (h x List.mem_cons_self)]
    rfl
  | cons y ys ih =>
    obtain ⟨hx, hrest⟩ := List.forall_mem_cons.mp h
    have hspace : pieces (· == ',') (' ' :: ", ".toList.intercalate (y :: ys)) =
        (' ' :: y) :: ys.map (' ' :: ·) := by
      rw [pieces, if_neg (by decide), ih hrest]
    rw [List.intercalate_cons_cons, List.append_assoc, pieces_eq_splitOnP]
    show (x ++ ',' :: ' ' :: ", ".toList.intercalate (y :: ys)).splitOnP (· == ',') = _
    rw [List.splitOnP_append_cons x _ (by decide), hcut x hx, ← pieces_eq_splitOnP, hspace]
    rfl

/-- A text says which members without commas it was made of. -/
theorem isBaseList_iff {s : String} {bases : List (List Char)} (hne : bases ≠ [])
    (hcomma : ∀ b ∈ bases, ',' ∉ b) (hs : s.toList = ", ".toList.intercalate bases) :
    IsBaseList s ↔ ∀ b ∈ bases, IsBase b := by
  constructor
  · rintro ⟨bases', hne', hbase, hs'⟩
    obtain ⟨x, xs, rfl⟩ := List.exists_cons_of_ne_nil hne
    obtain ⟨y, ys, rfl⟩ := List.exists_cons_of_ne_nil hne'
    have hcut := pieces_intercalate hcomma
    rw [← hs, hs', pieces_intercalate fun b hb => (hbase b hb).unlisted] at hcut
    obtain ⟨rfl, hmap⟩ := List.cons.inj hcut
    have hinjective : Function.Injective fun w : List Char => ' ' :: w :=
      fun _ _ heq => (List.cons.inj heq).2
    rwa [← hinjective.list_map hmap]
  · intro hbase
    exact ⟨bases, hne, hbase, hs⟩

theorem intercalate_flatten (sep : List Char) {lists : List (List (List Char))}
    (h : ∀ xs ∈ lists, xs ≠ []) :
    sep.intercalate (lists.map sep.intercalate) = sep.intercalate lists.flatten := by
  induction lists with
  | nil => rfl
  | cons xs lists ih =>
    obtain ⟨hxs, hrest⟩ := List.forall_mem_cons.mp h
    rw [List.map_cons, List.flatten_cons]
    by_cases hnil : lists = []
    · rw [hnil]
      simp
    · have hflat : lists.flatten ≠ [] := by
        intro hempty
        obtain ⟨ys, hys⟩ := List.exists_mem_of_ne_nil lists hnil
        exact hrest ys hys (List.flatten_eq_nil_iff.mp hempty ys hys)
      rw [intercalate_append sep hxs hflat, ← ih hrest,
        List.intercalate_cons_of_ne_nil (by simpa using hnil)]

/-! ## Heritage texts -/

def heritageBases (s : String) : List (List Char) :=
  (heritageItems s).map baseOf

theorem heritageBases_ne_nil (s : String) : heritageBases s ≠ [] := by
  simpa [heritageBases] using heritageItems_ne_nil s

theorem collapsed_of_mem_heritageBases {s : String} {b : List Char} (h : b ∈ heritageBases s) :
    Collapsed b ∧ ',' ∉ b := by
  obtain ⟨item, hitem, rfl⟩ := List.mem_map.mp h
  exact ⟨collapsed_baseOf (singleSpaced_of_mem_heritageItems hitem), comma_not_mem_baseOf hitem⟩

theorem bases?_eq (s : String) :
    bases? s = if (", ".toList.intercalate (heritageBases s)).all isBlank then none
      else some (String.ofList (", ".toList.intercalate (heritageBases s))) :=
  rfl

theorem toList_of_bases? {s r : String} (h : bases? s = some r) :
    r.toList = ", ".toList.intercalate (heritageBases s) := by
  rw [bases?_eq] at h
  split at h
  · cases h
  · rw [← Option.some.inj h, String.toList_ofList]

theorem Collapsed.eq_nil {cs : List Char} (h : Collapsed cs) (hblank : cs.all isBlank = true) :
    cs = [] := by
  rw [← h.trimChars_eq, trimChars, dropLeading,
    List.dropWhile_eq_nil_iff.mpr (List.all_eq_true.mp hblank)]
  rfl

theorem bases?_eq_none_iff (s : String) :
    bases? s = none ↔ ∃ item, heritageItems s = [item] ∧ ¬ NamesBase item := by
  have hnone : bases? s = none ↔
      (", ".toList.intercalate (heritageBases s)).all isBlank = true := by
    rw [bases?_eq, ite_eq_left_iff]
    simp only [reduceCtorEq, imp_false, not_not]
  rw [hnone, heritageBases]
  obtain ⟨item, items, hitems⟩ := List.exists_cons_of_ne_nil (heritageItems_ne_nil s)
  rw [hitems, List.map_cons]
  cases items with
  | nil =>
    have hspaced : SingleSpaced item :=
      singleSpaced_of_mem_heritageItems (hitems ▸ List.mem_cons_self)
    rw [List.map_nil, List.intercalate_singleton]
    constructor
    · intro hblank
      exact ⟨item, rfl, (baseOf_eq_nil_iff hspaced).mp ((collapsed_baseOf hspaced).eq_nil hblank)⟩
    · rintro ⟨_, hone, hnames⟩
      obtain ⟨rfl, -⟩ := List.cons.inj hone
      rw [(baseOf_eq_nil_iff hspaced).mpr hnames]
      rfl
  | cons item' items =>
    -- the comma between two bases is no blank
    refine iff_of_false (fun hblank => ?_) (by simp)
    rw [List.map_cons, List.intercalate_cons_cons] at hblank
    have hcomma := List.all_eq_true.mp hblank ',' (by simp)
    exact absurd hcomma (by decide)

/-- The result is a list of bases exactly if every item names one. -/
theorem isBaseList_bases?_iff {s r : String} (h : bases? s = some r) :
    IsBaseList r ↔ ∀ item ∈ heritageItems s, NamesBase item := by
  have hcomma : ∀ b ∈ heritageBases s, ',' ∉ b := fun b hb => (collapsed_of_mem_heritageBases hb).2
  rw [isBaseList_iff (heritageBases_ne_nil s) hcomma (toList_of_bases? h)]
  rw [heritageBases, List.forall_mem_map]
  exact forall₂_congr fun item hitem => isBase_baseOf_iff hitem

/-- What the items of several heritage texts give, less the texts that give nothing. -/
def jointBases (texts : List String) : List (List Char) :=
  ((texts.filter fun t => (bases? t).isSome).map heritageBases).flatten

theorem mem_jointBases {texts : List String} {b : List Char} :
    b ∈ jointBases texts ↔
      ∃ t ∈ texts, (bases? t).isSome = true ∧ ∃ item ∈ heritageItems t, baseOf item = b := by
  simp only [jointBases, heritageBases, List.mem_flatten, List.mem_map, List.mem_filter]
  constructor
  · rintro ⟨_, ⟨t, ⟨ht, hsome⟩, rfl⟩, hb⟩
    exact ⟨t, ht, hsome, List.mem_map.mp hb⟩
  · rintro ⟨t, ht, hsome, hb⟩
    exact ⟨_, ⟨t, ⟨ht, hsome⟩, rfl⟩, List.mem_map.mpr hb⟩

theorem toList_join_bases? (texts : List String) :
    (join ", " (texts.filterMap bases?)).toList = ", ".toList.intercalate (jointBases texts) := by
  have hparts : (texts.filterMap bases?).map String.toList =
      ((texts.filter fun t => (bases? t).isSome).map heritageBases).map
        ", ".toList.intercalate := by
    induction texts with
    | nil => rfl
    | cons t texts ih =>
      cases h : bases? t with
      | none => simpa [h] using ih
      | some r => simpa [h, toList_of_bases? h] using ih
  rw [join, String.toList_intercalate, hparts, jointBases]
  exact intercalate_flatten _ (List.forall_mem_map.mpr fun t _ => heritageBases_ne_nil t)

/-- Several heritage texts, joined: a list of bases exactly if each one is, or gives nothing. -/
theorem isBaseList_join_iff {texts : List String} (hne : texts.filterMap bases? ≠ []) :
    IsBaseList (join ", " (texts.filterMap bases?)) ↔
      ∀ t ∈ texts, bases? t = none ∨ ∀ item ∈ heritageItems t, NamesBase item := by
  have hsome : jointBases texts ≠ [] := by
    obtain ⟨r, hr⟩ := List.exists_mem_of_ne_nil _ hne
    obtain ⟨t, ht, hbases⟩ := List.mem_filterMap.mp hr
    obtain ⟨item, hitem⟩ := List.exists_mem_of_ne_nil _ (heritageItems_ne_nil t)
    exact List.ne_nil_of_mem (mem_jointBases.mpr ⟨t, ht, by rw [hbases]; rfl, item, hitem, rfl⟩)
  have hcomma : ∀ b ∈ jointBases texts, ',' ∉ b := by
    intro b hb
    obtain ⟨t, -, -, item, hitem, rfl⟩ := mem_jointBases.mp hb
    exact comma_not_mem_baseOf hitem
  rw [isBaseList_iff hsome hcomma (toList_join_bases? texts)]
  constructor
  · intro hbase t ht
    refine or_iff_not_imp_left.mpr fun hgiven item hitem => (isBase_baseOf_iff hitem).mp ?_
    have hsome : (bases? t).isSome = true := Option.isSome_iff_ne_none.mpr hgiven
    exact hbase _ (mem_jointBases.mpr ⟨t, ht, hsome, item, hitem, rfl⟩)
  · intro hnames b hb
    obtain ⟨t, ht, hgiven, item, hitem, rfl⟩ := mem_jointBases.mp hb
    have hall := (hnames t ht).resolve_left (Option.isSome_iff_ne_none.mp hgiven)
    exact (isBase_baseOf_iff hitem).mpr (hall item hitem)

end CodeAtlas.Text
