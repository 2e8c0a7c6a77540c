import CodeAtlas.Proofs.Text.BaseList

/-!
Words of base lists.  In a heritage text, as in the list of bases made from it, words stand between
spaces and commas.  Cutting the text at its commas, each item at its spaces and joining what is left
moves these characters about, but every word stays whole and in its place, and only keywords go:

    bases? "(A, virtual public B) "                 words A, B of A, virtual, public, B
    bases? "extends A implements implements B"      words A, B of extends, A, implements, implements, B

The step that is not plain is the replacement of ` implements ` by a comma and a space: a second keyword
right behind the first has no space in front any more and stays in the text (`keptWords_replaceFrom`).
-/

namespace CodeAtlas.Text

/-- The characters between the words of a list. -/
def isListMark (c : Char) : Bool := c == ' ' || c == ','

/-- The words of a list: its maximal runs of characters other than spaces and commas. -/
def listWords (cs : List Char) : List (List Char) :=
  runs isListMark cs

def keptWords (cs : List Char) : List (List Char) :=
  (listWords cs).filter fun w => !isHeritageKeyword w

theorem isListMark_space : isListMark ' ' = true := by decide

theorem isListMark_comma : isListMark ',' = true := by decide

/-! ## Spaces -/

theorem listWords_intercalate (ws : List (List Char)) :
    listWords ([' '].intercalate ws) = ws.flatMap listWords :=
  runs_intercalate (by simp) (List.forall_mem_singleton.mpr isListMark_space) ws

theorem SingleSpaced.listWords_eq {cs : List Char} (h : SingleSpaced cs) :
    listWords cs = (words cs).flatMap listWords := by
  obtain ⟨lead, trail, hlead, htrail, hcs⟩ := h.eq_intercalate
  have hnone : ∀ {ps : List (List Char)}, (∀ w ∈ ps, w = []) → ps.flatMap listWords = [] := by
    intro ps hps
    refine List.flatMap_eq_nil_iff.mpr fun w hw => ?_
    rw [hps w hw]
    rfl
  conv_lhs => rw [← hcs]
  rw [listWords_intercalate, List.flatMap_append, List.flatMap_append, hnone hlead, hnone htrail,
    List.nil_append, List.append_nil]

theorem SingleSpaced.listWords_trimChars {cs : List Char} (h : SingleSpaced cs) :
    listWords (trimChars cs) = listWords cs := by
  rw [h.trimChars_eq, collapseChars, listWords_intercalate, h.listWords_eq]

/-! ## Items -/

theorem listWords_item {item : List Char} (h : SingleSpaced item) (hcomma : ',' ∉ item) :
    listWords item = words item := by
  rw [h.listWords_eq]
  refine flatMap_runs fun w hw => ?_
  have hword := isWord_of_mem_words hw
  refine ⟨hword.ne_nil, fun c hc => ?_⟩
  have hspace : c ≠ ' ' := by
    rintro rfl
    exact absurd (hword.unblank ' ' hc) (by decide)
  have hnot : c ≠ ',' := by
    rintro rfl
    exact hcomma ((infix_of_mem_pieces (List.mem_of_mem_filter hw)).subset hc)
  simp [isListMark, hspace, hnot]

theorem listWords_baseOf {item : List Char} (h : SingleSpaced item) (hcomma : ',' ∉ item) :
    listWords (baseOf item) = keptWords item := by
  rw [baseOf_eq h, listWords_intercalate, keptWords, listWords_item h hcomma]
  refine flatMap_runs fun w hw => ?_
  have hmem : w ∈ listWords item := by
    rw [listWords_item h hcomma]
    exact List.mem_of_mem_filter hw
  exact of_mem_runs hmem

theorem keptWords_eq_flatMap_items (listed : List Char) :
    keptWords listed = (pieces (· == ',') listed).flatMap keptWords := by
  have hwords := runs_intercalate (by simp) (List.forall_mem_singleton.mpr isListMark_comma)
    (pieces (· == ',') listed)
  rw [intercalate_pieces] at hwords
  rw [keptWords, listWords, hwords, List.filter_flatMap]
  rfl

/-! ## The keyword between two bases -/

theorem keptWords_append_mark (cs : List Char) {m : Char} (hm : isListMark m = true)
    (rest : List Char) : keptWords (cs ++ m :: rest) = keptWords cs ++ keptWords rest := by
  rw [keptWords, listWords, runs_append_sep cs hm, List.filter_append]
  rfl

/-- Replacing a keyword between two spaces by a comma and a space keeps the other words.  What stands
in front, `lead`, can end in the first part of a word that goes on where the replacement starts. -/
theorem keptWords_replaceFrom {old word : List Char} (hold : old = ' ' :: word ++ [' '])
    (hword : keptWords word = []) (lead : List Char) (skip : Nat) (cs : List Char) :
    keptWords (lead ++ replaceFrom old ", ".toList skip cs) = keptWords (lead ++ cs.drop skip) := by
  fun_induction replaceFrom old ", ".toList skip cs generalizing lead with
  | case1 => simp
  | case2 skip c cs ih => exact ih lead
  | case3 c cs hmatch ih =>
    obtain ⟨rest, hstrip⟩ := Option.isSome_iff_exists.mp hmatch
    have hcs : c :: cs = ' ' :: (word ++ ' ' :: rest) := by
      rw [eq_append_of_stripLead? hstrip, hold]
      simp
    have hrest : keptWords (replaceFrom old ", ".toList (old.length - 1) cs) = keptWords rest := by
      rw [← drop_of_stripLead? (by simp [hold]) hstrip]
      exact ih []
    rw [List.drop_zero, hcs, keptWords_append_mark lead isListMark_space,
      keptWords_append_mark word isListMark_space, hword, List.nil_append, ← hrest]
    show keptWords (lead ++ ',' :: ([] ++ ' ' :: _)) = _
    rw [keptWords_append_mark lead isListMark_comma, keptWords_append_mark [] isListMark_space]
    rfl
  | case4 c cs hmatch ih =>
    -- the character can be part of a word, so it joins what stands in front
    have hlead := ih (lead ++ [c])
    rw [List.append_assoc, List.append_assoc] at hlead
    exact hlead

/-! ## Heritage texts -/

/-- What stands in a heritage text: it is collapsed, without the colons at its start and the blank
behind them, and without one pair of parentheses around the rest. -/
def heritageText (s : String) : List Char :=
  unwrapped (trimChars (dropLeading (· == ':') (collapseChars s.toList)))

theorem listWords_heritageBody (s : String) :
    listWords (heritageBody (collapseChars s.toList)) = listWords (heritageText s) := by
  have hspaced : SingleSpaced (heritageText s) :=
    (collapsed_collapseChars s.toList).singleSpaced.part ((unwrapped_part _).trans
      ((trimChars_part _).trans (List.dropWhile_suffix fun c => c == ':').isInfix))
  rcases dropParens_cases (trimChars (dropLeading (· == ':') (collapseChars s.toList))) with h | h
  · rw [heritageBody, h]
    rfl
  · rw [heritageBody, h]
    exact hspaced.listWords_trimChars

theorem flatMap_listWords_heritageBases (s : String) :
    (heritageBases s).flatMap listWords = keptWords (heritageText s) := by
  have hitems : (heritageBases s).flatMap listWords = (heritageItems s).flatMap keptWords := by
    rw [heritageBases, List.flatMap_map]
    exact List.flatMap_congr fun item hitem => listWords_baseOf
      (singleSpaced_of_mem_heritageItems hitem) (comma_not_mem_of_mem_heritageItems hitem)
  have hspaces : " implements ".toList = ' ' :: "implements".toList ++ [' '] := by decide
  have hkeyword : keptWords "implements".toList = [] := by decide
  have hreplaced := keptWords_replaceFrom hspaces hkeyword [] 0
    (heritageBody (collapseChars s.toList))
  rw [List.nil_append, List.nil_append, List.drop_zero] at hreplaced
  rw [hitems, heritageItems, ← keptWords_eq_flatMap_items, hreplaced, keptWords,
    listWords_heritageBody, ← keptWords]

/-- **Only keywords go.**  The words of the bases that a heritage text gives are the words of what
stands in it, in their order and as often as they stand there, without the keywords.  A text that
gives nothing has no other words. -/
theorem listWords_bases? (s : String) :
    ((bases? s).elim [] fun bases => listWords bases.toList) =
      (listWords (heritageText s)).filter fun w => !isHeritageKeyword w := by
  have hmarks : ", ".toList.all isListMark = true := by decide
  have hjoined : listWords (", ".toList.intercalate (heritageBases s)) =
      keptWords (heritageText s) := by
    rw [← flatMap_listWords_heritageBases]
    exact runs_intercalate (by simp) (List.all_eq_true.mp hmarks) _
  cases h : bases? s with
  | some bases =>
    rw [Option.elim_some, toList_of_bases? h, hjoined]
    rfl
  | none =>
    obtain ⟨item, hitem, hnames⟩ := (bases?_eq_none_iff s).mp h
    have hspaced := singleSpaced_of_mem_heritageItems (hitem ▸ List.mem_cons_self)
    have hnone : heritageBases s = [[]] := by
      rw [heritageBases, hitem, List.map_singleton, (baseOf_eq_nil_iff hspaced).mpr hnames]
    rw [Option.elim_none, ← keptWords, ← hjoined, hnone]
    rfl

example : bases? ":(extends Map<K, virtual V> implements implements A,public ,B)" =
    some "Map<K, V>, A, , B" := by
  decide

end CodeAtlas.Text
