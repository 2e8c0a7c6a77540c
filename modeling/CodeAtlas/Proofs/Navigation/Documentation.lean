import CodeAtlas.Proofs.Navigation.Innermost
import CodeAtlas.Proofs.Text.Lines
import Mathlib.Data.List.Chain

/-!
The documentation above a declaration.  Comments are read from the last to the first, and the boundary
that a comment has to reach moves up with each one that is taken.

    comment   code   comment   #[attribute]   comment   |start
                     ←           a run          →

The loop takes the longest run (`longest_attached`): a run of the comments up to `d` is empty, or it
is `d` after a run that reaches the start of `d` (`reaches_concat_iff`).
-/

namespace CodeAtlas

namespace SourceFile

open Text

/-! ## Gaps -/

/-- A line of blanks, or one that starts with an attribute or a decorator after some blanks. -/
def GapLine (line : List Char) : Prop :=
  ∃ blanks rest, line = blanks ++ rest ∧ (∀ c ∈ blanks, isBlank c = true) ∧
    (rest = [] ∨ ['#', '['] <+: rest ∨ ['@'] <+: rest)

/-- The bytes from `a` to `b` are lines that may stand between a comment and its declaration. -/
def Gap (bytes : List UInt8) (a b : Nat) : Prop :=
  ∀ line ∈ (Utf8.decodeLossy ((bytes.drop a).take (b - a))).toList.splitOn '\n', GapLine line

theorem gapLine_iff (line : List Char) :
    GapLine line ↔ dropLeading isBlank line = [] ∨ ['#', '['] <+: dropLeading isBlank line ∨
      ['@'] <+: dropLeading isBlank line := by
  constructor
  · rintro ⟨blanks, rest, rfl, hblanks, hrest⟩
    have hdrop : dropLeading isBlank (blanks ++ rest) = rest.dropWhile isBlank :=
      List.dropWhile_append_of_pos hblanks
    rw [hdrop]
    rcases hrest with rfl | ⟨after, rfl⟩ | ⟨after, rfl⟩
    · exact Or.inl rfl
    · exact Or.inr (Or.inl (List.prefix_append ['#', '['] after))
    · exact Or.inr (Or.inr (List.prefix_append ['@'] after))
  · intro h
    refine ⟨line.takeWhile isBlank, dropLeading isBlank line, ?_, ?_, h⟩
    · exact List.takeWhile_append_dropWhile.symm
    · intro c hc
      exact List.mem_takeWhile_imp hc

theorem isGapLine_iff (line : List Char) : isGapLine line = true ↔ GapLine line := by
  have htrim : TrimsTo (dropLeading isBlank line) (trimChars line) := trimsTo_dropTrailing _
  have hnil : trimChars line = [] ↔ dropLeading isBlank line = [] := by
    rw [trimChars_eq_nil_iff, dropLeading, List.dropWhile_eq_nil_iff]
  have hat : ((trimChars line).head? == some '@') = true ↔ ['@'] <+: trimChars line := by
    rw [beq_iff_eq, List.singleton_prefix_iff_head?_eq_some]
  have hbracket : ∀ c ∈ ['#', '['].getLast?, isBlank c = false := by
    intro c hc
    obtain rfl : '[' = c := by simpa using hc
    decide
  have hsign : ∀ c ∈ ['@'].getLast?, isBlank c = false := by
    intro c hc
    obtain rfl : '@' = c := by simpa using hc
    decide
  unfold isGapLine
  rw [Bool.or_eq_true, Bool.or_eq_true, List.isEmpty_iff, isSome_stripLead?_iff, hat, or_assoc, hnil,
    htrim.starts_iff hbracket, htrim.starts_iff hsign, gapLine_iff]

theorem isGap_iff (bytes : List UInt8) (a b : Nat) :
    isGap ((bytes.drop a).take (b - a)) = true ↔ Gap bytes a b := by
  have hreturn : ∀ line, isGapLine (dropReturn line) = isGapLine line := by
    intro line
    unfold isGapLine
    rw [trimChars_dropReturn]
  unfold isGap Gap
  rw [all_lines rfl hreturn, List.all_eq_true]
  simp only [isGapLine_iff]

/-! ## Runs -/

/-- Some of the comments one after another, none left out between them or up to `start`, such that
only gaps are between them and `start`. -/
structure Reaches (bytes : List UInt8) (comments : List NodeInfo) (start : Nat)
    (run : List NodeInfo) : Prop where
  consecutive : run <:+ comments.filter (·.endByte ≤ start)
  between : run.IsChain (fun i j => Gap bytes i.endByte j.startByte)
  last : ∀ i ∈ run.getLast?, Gap bytes i.endByte start

/-- The longest run, which is the only one of its length. -/
structure LongestRun (bytes : List UInt8) (comments : List NodeInfo) (start : Nat)
    (run : List NodeInfo) : Prop extends Reaches bytes comments start run where
  longest : ∀ other, Reaches bytes comments start other → other.length ≤ run.length

/-- Each comment has bytes and ends before the next one starts. -/
structure InOrder (comments : List NodeInfo) : Prop where
  nonempty : ∀ i ∈ comments, i.startByte < i.endByte
  apart : comments.Pairwise (fun i j => i.endByte ≤ j.startByte)

section

variable {bytes : List UInt8} {init run : List NodeInfo} {d : NodeInfo} {start : Nat}

theorem InOrder.of_concat (h : InOrder (init ++ [d])) : InOrder init :=
  ⟨fun i hi => h.nonempty i (List.mem_append_left _ hi), (List.pairwise_append.mp h.apart).1⟩

theorem InOrder.last_nonempty (h : InOrder (init ++ [d])) : d.startByte < d.endByte :=
  h.nonempty d (by simp)

theorem InOrder.filter_eq (h : InOrder (init ++ [d])) {stop : Nat} (hstop : d.startByte ≤ stop) :
    init.filter (·.endByte ≤ stop) = init := by
  refine List.filter_eq_self.mpr fun i hi => decide_eq_true ?_
  have := (List.pairwise_append.mp h.apart).2.2 i hi d (by simp)
  omega

theorem reaches_nil (bytes : List UInt8) (comments : List NodeInfo) (start : Nat) :
    Reaches bytes comments start [] :=
  ⟨List.nil_suffix, List.IsChain.nil, by simp⟩

/-- A comment that ends after the start is in no run. -/
theorem reaches_concat_of_lt (hd : start < d.endByte) :
    Reaches bytes (init ++ [d]) start run ↔ Reaches bytes init start run := by
  have hfilter : (init ++ [d]).filter (·.endByte ≤ start) = init.filter (·.endByte ≤ start) := by
    simp [List.filter_append, hd]
  constructor
  · rintro ⟨hrun, hbetween, hlast⟩
    exact ⟨hfilter ▸ hrun, hbetween, hlast⟩
  · rintro ⟨hrun, hbetween, hlast⟩
    exact ⟨hfilter ▸ hrun, hbetween, hlast⟩

/-- A run ends with the last comment, before which stands a run that reaches this comment. -/
theorem reaches_concat_iff (h : InOrder (init ++ [d])) (hd : d.endByte ≤ start) :
    Reaches bytes (init ++ [d]) start run ↔
      run = [] ∨ ∃ above, run = above ++ [d] ∧ Gap bytes d.endByte start ∧
        Reaches bytes init d.startByte above := by
  have hnonempty := h.last_nonempty
  have hfilter : (init ++ [d]).filter (·.endByte ≤ start) = init ++ [d] := by
    rw [List.filter_append, h.filter_eq (by omega)]
    simp [hd]
  constructor
  · rintro ⟨hrun, hbetween, hlast⟩
    rw [hfilter] at hrun
    rcases List.suffix_concat_iff.mp hrun with rfl | ⟨above, rfl, habove⟩
    · exact Or.inl rfl
    · obtain ⟨hchain, -, hreach⟩ := List.isChain_append.mp hbetween
      refine Or.inr ⟨above, rfl, hlast d (by simp), ?_, hchain, fun i hi => hreach i hi d rfl⟩
      rwa [h.filter_eq (Nat.le_refl _)]
  · rintro (rfl | ⟨above, rfl, hgap, hrun, hbetween, hlast⟩)
    · exact reaches_nil bytes _ start
    · rw [h.filter_eq (Nat.le_refl _)] at hrun
      refine ⟨?_, ?_, ?_⟩
      · rw [hfilter]
        exact List.suffix_concat_iff.mpr (Or.inr ⟨above, rfl, hrun⟩)
      · refine List.isChain_append.mpr ⟨hbetween, List.IsChain.singleton d, fun i hi j hj => ?_⟩
        obtain rfl : d = j := by simpa using hj
        exact hlast i hi
      · intro i hi
        obtain rfl : d = i := by simpa using hi
        exact hgap

end

/-- The loop takes the longest run that reaches the boundary. -/
theorem longest_attached {bytes : List UInt8} {comments : List NodeInfo} (h : InOrder comments)
    {start : Nat} (hstart : start ≤ bytes.length) :
    LongestRun bytes comments start (attached bytes start comments.reverse).reverse := by
  induction comments using List.reverseRecOn generalizing start with
  | nil =>
    refine ⟨reaches_nil bytes [] start, ?_⟩
    rintro other ⟨hother, -, -⟩
    exact hother.length_le
  | append_singleton init d ih =>
    rw [List.reverse_append, List.reverse_singleton, List.singleton_append, attached]
    by_cases hd : start < d.endByte
    · -- the loop passes over a comment behind the start, which is in no run
      rw [if_pos hd]
      obtain ⟨hreaches, hlongest⟩ := ih h.of_concat hstart
      exact ⟨(reaches_concat_of_lt hd).mpr hreaches,
        fun other hother => hlongest other ((reaches_concat_of_lt hd).mp hother)⟩
    · have hend : d.endByte ≤ start := by omega
      have hbound : (start ≤ bytes.length : Bool) = true := decide_eq_true hstart
      rw [if_neg hd, hbound, Bool.true_and]
      by_cases hgap : Gap bytes d.endByte start
      · -- the run goes on above `d`, up to its first byte
        rw [if_pos ((isGap_iff bytes _ _).mpr hgap), List.reverse_cons]
        have hnonempty := h.last_nonempty
        have hbefore : d.startByte ≤ bytes.length := by omega
        obtain ⟨hreaches, hlongest⟩ := ih h.of_concat hbefore
        refine ⟨(reaches_concat_iff h hend).mpr (Or.inr ⟨_, rfl, hgap, hreaches⟩), ?_⟩
        intro other hother
        rcases (reaches_concat_iff h hend).mp hother with rfl | ⟨above, rfl, -, habove⟩
        · exact Nat.zero_le _
        · have := hlongest above habove
          simpa using this
      · rw [if_neg (fun hok => hgap ((isGap_iff bytes _ _).mp hok))]
        refine ⟨reaches_nil bytes _ start, fun other hother => ?_⟩
        rcases (reaches_concat_iff h hend).mp hother with rfl | ⟨_, -, hgap', -⟩
        · exact Nat.zero_le _
        · exact absurd hgap' hgap

theorem attached_beyond {bytes : List UInt8} {start : Nat} (hstart : bytes.length < start)
    (comments : List NodeInfo) : attached bytes start comments = [] := by
  induction comments with
  | nil => rfl
  | cons i comments ih =>
    rw [attached, ih]
    simp [Nat.not_le.mpr hstart]

/-! ## Comments in source order -/

/-- Captured nodes with bytes, of which any two are the same or have no byte in common. -/
structure Separate (nodes : List NodeInfo) : Prop where
  nonempty : ∀ i ∈ nodes, i.startByte < i.endByte
  disjoint : ∀ i ∈ nodes, ∀ j ∈ nodes, i = j ∨ i.Apart j

theorem mem_of_mem_byStart {α : Type} {start : α → Nat} {l : List α} {a : α}
    (h : a ∈ byStart start l) : a ∈ l :=
  List.mem_mergeSort.mp ((firstOfRuns_sublist _ _).subset h)

theorem mem_byStart_iff {nodes : List NodeInfo} (h : Separate nodes) (i : NodeInfo) :
    i ∈ byStart (·.startByte) nodes ↔ i ∈ nodes := by
  refine ⟨mem_of_mem_byStart, fun hi => ?_⟩
  have hkept : ∃ j ∈ byStart (·.startByte) nodes, (i.startByte == j.startByte) = true :=
    exists_mem_firstOfRuns (fun i => beq_self_eq_true i.startByte) (List.mem_mergeSort.mpr hi)
  obtain ⟨j, hj, hsame⟩ := hkept
  -- The node that was kept starts at the same byte, so it is the same node.
  have hj' : j ∈ nodes := mem_of_mem_byStart hj
  rcases h.disjoint i hi j hj' with rfl | hapart
  · exact hj
  · have hstart : i.startByte = j.startByte := eq_of_beq hsame
    have hi' := h.nonempty i hi
    have hjn := h.nonempty j hj'
    unfold NodeInfo.Apart at hapart
    omega

theorem inOrder_byStart {nodes : List NodeInfo} (h : Separate nodes) :
    InOrder (byStart (·.startByte) nodes) := by
  refine ⟨fun i hi => h.nonempty i (mem_of_mem_byStart hi), ?_⟩
  have hsorted : (nodes.mergeSort (fun i j => i.startByte ≤ j.startByte)).Pairwise
      (fun i j => i.startByte ≤ j.startByte) := by
    refine (List.pairwise_mergeSort ?_ ?_ nodes).imp of_decide_eq_true
    · intro i j k hij hjk
      rw [decide_eq_true_eq] at *
      omega
    · intro i j
      rw [Bool.or_eq_true, decide_eq_true_eq, decide_eq_true_eq]
      omega
  have hbetween : ∀ i j k : NodeInfo, i.startByte ≤ j.startByte → j.startByte ≤ k.startByte →
      (k.startByte == i.startByte) = true → (j.startByte == i.startByte) = true := by
    intro i j k hij hjk hki
    rw [beq_iff_eq] at *
    omega
  have hkept := List.Pairwise.and_mem.mp (pairwise_firstOfRuns hbetween hsorted)
  refine hkept.imp ?_
  rintro i j ⟨hi, hj, hle, hne⟩
  have hi' : i ∈ nodes := mem_of_mem_byStart hi
  have hj' : j ∈ nodes := mem_of_mem_byStart hj
  have hne' : j.startByte ≠ i.startByte := beq_eq_false_iff_ne.mp hne
  rcases h.disjoint i hi' j hj' with rfl | hapart
  · exact absurd rfl hne'
  · have := h.nonempty j hj'
    unfold NodeInfo.Apart at hapart
    omega

/-! ## The documentation of a declaration -/

def decodedText (f : SourceFile) (i : NodeInfo) : List Char :=
  (Utf8.decodeLossy (i.bytes f.bytes)).toList

/-- The documentation that a run of comments makes: their texts without the blanks at the end of each,
one below the other, and the bytes from the first to the last. -/
structure Documents (f : SourceFile) (run : List NodeInfo) (doc : DocComment) : Prop where
  text : ∃ texts, List.Forall₂ (fun i t => TrimsTo (f.decodedText i) t.toList) run texts ∧
    doc.text = Text.join "\n" texts
  span : ∃ first last, run.head? = some first ∧ run.getLast? = some last ∧
    doc.span = Span.ofRange f.bytes first.startByte last.endByte

theorem trimsTo_commentText (f : SourceFile) (i : NodeInfo) :
    TrimsTo (f.decodedText i) (f.commentText i).toList := by
  rw [commentText, String.toList_ofList]
  exact trimsTo_dropTrailing _

theorem docCommentAbove_cases (f : SourceFile) (comments : List NodeInfo) (start : Nat)
    {run : List NodeInfo}
    (hrun : (attached f.bytes start (byStart (·.startByte) comments).reverse).reverse = run) :
    (run = [] ∧ f.docCommentAbove comments start = none) ∨
      ∃ doc, f.docCommentAbove comments start = some doc ∧ run ≠ [] ∧ f.Documents run doc := by
  unfold docCommentAbove
  rw [hrun]
  cases run with
  | nil => exact Or.inl ⟨rfl, rfl⟩
  | cons first rest =>
    have hlast : (first :: rest).getLast? = some (rest.getLast?.getD first) := List.getLast?_cons
    refine Or.inr ⟨⟨Text.join "\n" ((first :: rest).map f.commentText),
      Span.ofRange f.bytes first.startByte (rest.getLast?.getD first).endByte⟩, ?_, by simp, ?_, ?_⟩
    · dsimp only
      rw [hlast]
      rfl
    · refine ⟨(first :: rest).map f.commentText, ?_, rfl⟩
      rw [List.forall₂_map_right_iff]
      exact List.forall₂_same.mpr fun i _ => f.trimsTo_commentText i
    · exact ⟨first, rest.getLast?.getD first, rfl, hlast, rfl⟩

theorem Reaches.endByte_le {f : SourceFile} {comments run : List NodeInfo} {start : Nat}
    {doc : DocComment} (h : Reaches f.bytes comments start run) (hdoc : f.Documents run doc) :
    doc.span.endByte ≤ start := by
  obtain ⟨first, last, -, hlast, hspan⟩ := hdoc.span
  have hmem := h.consecutive.subset (List.mem_of_getLast? hlast)
  rw [hspan, Span.endByte_ofRange]
  exact of_decide_eq_true (List.mem_filter.mp hmem).2

theorem docComment_eq [QueryEngine] {f : SourceFile} {p : Profile} {start : Nat}
    {matched : List Captures} (h : f.capturesOf p .docComment = .ok matched) :
    f.docComment p start = .ok (f.docCommentAbove (labelled "doc" matched) start) := by
  unfold docComment
  rw [h]
  rfl

/-- **A declaration is documented by the longest run of comments above it.**  Nothing documents a
declaration that starts beyond the end of the file.  For any other, let the captured comments have
bytes, and let any two of them be the same or have no byte in common.  Out of the comments in source
order, the longest run with nothing but gaps between them and the declaration documents it: there is
no documentation if and only if this run is empty; otherwise its text is that of the comments, each
without the blanks at its end and on lines of its own, and its span goes from the start of the first
to the end of the last, which is no later than the start of the declaration. -/
theorem docComment_longest_run [QueryEngine] (f : SourceFile) (p : Profile) (start : Nat)
    {matched : List Captures} (hmatched : f.capturesOf p .docComment = .ok matched) :
    (f.bytes.length < start → f.docComment p start = .ok none) ∧
    (start ≤ f.bytes.length → Separate (labelled "doc" matched) →
      ∃ comments run found,
        (∀ i, i ∈ comments ↔ i ∈ labelled "doc" matched) ∧ InOrder comments ∧
        LongestRun f.bytes comments start run ∧ f.docComment p start = .ok found ∧
        (found = none ↔ run = []) ∧
        ∀ doc, found = some doc → f.Documents run doc ∧ doc.span.endByte ≤ start) := by
  rw [docComment_eq hmatched]
  refine ⟨fun hbeyond => ?_, fun hstart hseparate => ?_⟩
  · rcases f.docCommentAbove_cases (labelled "doc" matched) start rfl with
      ⟨-, hnone⟩ | ⟨doc, -, hne, -⟩
    · rw [hnone]
    · rw [attached_beyond hbeyond] at hne
      exact absurd rfl hne
  · have horder := inOrder_byStart hseparate
    have hlongest := longest_attached horder hstart
    refine ⟨_, _, _, mem_byStart_iff hseparate, horder, hlongest, rfl, ?_⟩
    rcases f.docCommentAbove_cases (labelled "doc" matched) start rfl with
      ⟨hnil, hnone⟩ | ⟨doc, hsome, hne, hdocuments⟩
    · rw [hnone]
      exact ⟨iff_of_true rfl hnil, fun doc hdoc => by cases hdoc⟩
    · rw [hsome]
      refine ⟨iff_of_false (by simp) hne, ?_⟩
      rintro doc' hdoc'
      cases hdoc'
      exact ⟨hdocuments, hlongest.toReaches.endByte_le hdocuments⟩

end SourceFile

/-- A language whose query captures every comment twice. -/
def Profile.remarks : Profile :=
  { Profile.calls with
    queries := ⟨fun name => ⟨name, "notes", 1, "(comment) @doc (comment) @doc"⟩⟩ }

def SourceFile.remarkNodes : List Node :=
  [.ofRange "comment" 0 3 true [], .ofRange "comment" 6 10 true [], .ofRange "comment" 14 17 true [],
    .ofRange "comment" 25 28 true []]

def SourceFile.remarkInfos : List NodeInfo :=
  remarkNodes.flatMap fun n => [n.info, n.info]

def SourceFile.remarked : SourceFile :=
  ⟨"a.txt", "notes", "python", Text.Utf8.encode "# z\nx\n# a \n@x\n# b\n\ndef f # c",
    .ofRange "module" 0 28 true remarkNodes⟩

namespace SourceFile

theorem docCommentAbove_remarked :
    remarked.docCommentAbove remarkInfos 19 = some ⟨"# a\n# b", ⟨6, 17, 3, 1, 5, 4⟩⟩ := by
  have hsorted : byStart (·.startByte) remarkInfos = remarkNodes.map Node.info := by
    rw [byStart, List.mergeSort_of_pairwise (by decide)]
    decide
  unfold docCommentAbove
  rw [hsorted]
  decide +kernel

theorem docComment_longest_run_remarked :
    (remarked.capturesOf .remarks .docComment).map (labelled "doc") = .ok remarkInfos ∧
    Separate remarkInfos ∧ 19 ≤ remarked.bytes.length ∧
    remarked.docComment .remarks 19 = .ok (some ⟨"# a\n# b", ⟨6, 17, 3, 1, 5, 4⟩⟩) ∧
    ∃ comments run, LongestRun remarked.bytes comments 19 run ∧
      remarked.Documents run ⟨"# a\n# b", ⟨6, 17, 3, 1, 5, 4⟩⟩ := by
  have hcaptured : (remarked.capturesOf .remarks .docComment).map (labelled "doc") =
      .ok remarkInfos := by
    decide +kernel
  have hseparate : Separate remarkInfos := ⟨by decide, by decide⟩
  have hstart : 19 ≤ remarked.bytes.length := by decide +kernel
  obtain ⟨matched, hmatched, hlabelled⟩ := exists_of_map_ok hcaptured
  have hdoc : remarked.docComment .remarks 19 =
      .ok (some ⟨"# a\n# b", ⟨6, 17, 3, 1, 5, 4⟩⟩) := by
    rw [docComment_eq hmatched, hlabelled, docCommentAbove_remarked]
  refine ⟨hcaptured, hseparate, hstart, hdoc, ?_⟩
  obtain ⟨-, hwithin⟩ := docComment_longest_run remarked .remarks 19 hmatched
  rw [hlabelled] at hwithin
  obtain ⟨comments, run, found, -, -, hlongest, hfound, -, hdocuments⟩ := hwithin hstart hseparate
  have hsame := Except.ok.inj (hdoc.symm.trans hfound)
  exact ⟨comments, run, hlongest, (hdocuments _ hsame.symm).1⟩

end SourceFile

end CodeAtlas
