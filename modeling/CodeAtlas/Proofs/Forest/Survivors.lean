import CodeAtlas.Entity.Forest

/-!
The candidates that survive.  They stand strictly in the order of spans (`survivors_before`), and the
survivor of a byte range is the first candidate of the range in the sorted list
(`filter_survivors`), although only neighbours are compared.  Sorting keeps candidates that tie in
range and clause in the order in which they came, so it depends on nothing else of that order:

    Reordered cs ds → survivors cs = survivors ds                     (survivors_eq_of_reordered)
-/

namespace CodeAtlas

namespace Span

/-- Strictly earlier: an earlier start, or the same start and a later end. -/
def Before (s t : Span) : Prop :=
  s.startByte < t.startByte ∨ (s.startByte = t.startByte ∧ t.endByte < s.endByte)

theorem Before.trans {s t u : Span} (h₁ : s.Before t) (h₂ : t.Before u) : s.Before u := by
  unfold Before at *
  omega

theorem Before.irrefl (s : Span) : ¬ s.Before s := by
  unfold Before
  omega

theorem contains_iff (s t : Span) :
    s.contains t = true ↔ s.startByte ≤ t.startByte ∧ t.endByte ≤ s.endByte := by
  simp [contains]

/-- An earlier span holds a later one as soon as it ends no earlier. -/
theorem Before.contains_iff {s t : Span} (h : s.Before t) :
    s.contains t = true ↔ t.endByte ≤ s.endByte := by
  rw [Span.contains_iff]
  unfold Before at h
  omega

/-- No span lies within one that comes after it. -/
theorem Before.not_contains {s t : Span} (h : s.Before t) : ¬ t.contains s = true := by
  rw [Span.contains_iff]
  unfold Before at h
  omega

theorem sameRange_iff (s t : Span) :
    s.sameRange t = true ↔ s.startByte = t.startByte ∧ s.endByte = t.endByte := by
  simp [sameRange]

end Span

namespace Candidate

/-- Whether two candidates cover the same bytes and come from the same clause. -/
def ties (a b : Candidate) : Bool :=
  a.sameRange b && a.clause == b.clause

theorem sameRange_iff (a b : Candidate) :
    a.sameRange b = true ↔
      a.span.startByte = b.span.startByte ∧ a.span.endByte = b.span.endByte :=
  Span.sameRange_iff a.span b.span

theorem ties_iff (a b : Candidate) :
    a.ties b = true ↔ a.sameRange b = true ∧ a.clause = b.clause := by
  simp [ties]

theorem ties_self (a : Candidate) : a.ties a = true := by
  rw [ties_iff, sameRange_iff]
  exact ⟨⟨rfl, rfl⟩, rfl⟩

theorem ties_iff_precedes (a b : Candidate) :
    a.ties b = true ↔ a.precedes b = true ∧ b.precedes a = true := by
  rw [ties_iff, sameRange_iff, precedes_iff, precedes_iff]
  omega

theorem before_of_precedes {a b : Candidate} (h : a.precedes b = true)
    (hne : ¬ b.sameRange a = true) : a.span.Before b.span := by
  rw [precedes_iff] at h
  rw [sameRange_iff] at hne
  unfold Span.Before
  omega

/-- The order keeps one range together: after a candidate of another range it does not come back. -/
theorem not_sameRange_later {a b c : Candidate} (hab : a.precedes b = true)
    (hne : ¬ b.sameRange a = true) (hbc : b.precedes c = true) : ¬ c.sameRange a = true := by
  rw [precedes_iff] at hab hbc
  rw [sameRange_iff] at *
  omega

end Candidate

namespace Forest

open Candidate

/-! ## The first of every run -/

/-- Of the candidates after `kept` that cover the bytes of `c`, the first one stays, unless `kept`
covers these bytes itself. -/
theorem filter_dropSame (c kept : Candidate) (l : List Candidate)
    (h : (kept :: l).Pairwise (fun a b => a.precedes b = true)) :
    (dropSame sameRange kept l).filter c.sameRange =
      if c.sameRange kept = true then [] else (l.find? c.sameRange).toList := by
  induction l generalizing kept with
  | nil => simp [dropSame]
  | cons a l ih =>
    have hl := List.pairwise_cons.mp h
    have hal := List.pairwise_cons.mp hl.2
    unfold dropSame
    by_cases hak : a.sameRange kept = true
    · rw [if_pos hak, ih kept (h.sublist ((List.sublist_cons_self a l).cons_cons kept))]
      by_cases hck : c.sameRange kept = true
      · rw [if_pos hck, if_pos hck]
      · have hca : ¬ c.sameRange a = true := by
          rw [sameRange_iff] at *
          omega
        rw [if_neg hck, if_neg hck, List.find?_cons_of_neg hca]
    · rw [if_neg hak]
      by_cases hca : c.sameRange a = true
      · have hck : ¬ c.sameRange kept = true := by
          rw [sameRange_iff] at *
          omega
        rw [List.filter_cons_of_pos hca, ih a hl.2, if_pos hca, if_neg hck,
          List.find?_cons_of_pos hca]
        rfl
      · rw [List.filter_cons_of_neg hca, ih a hl.2, if_neg hca, List.find?_cons_of_neg hca]
        by_cases hck : c.sameRange kept = true
        · -- the range of `kept` is over, and does not come back
          have hnone : l.find? c.sameRange = none := by
            rw [List.find?_eq_none]
            intro x hx hcx
            refine not_sameRange_later (hl.1 a List.mem_cons_self) hak (hal.1 x hx) ?_
            rw [sameRange_iff] at *
            omega
          rw [if_pos hck, hnone]
          rfl
        · rw [if_neg hck]

/-- Comparing neighbours is enough: in order, the elements of one range stand together. -/
theorem dropSame_eq_eraseDupsBy (kept : Candidate) (l : List Candidate)
    (h : (kept :: l).Pairwise (fun a b => a.precedes b = true)) :
    dropSame sameRange kept l =
      (l.filter (fun a => a.sameRange kept = false)).eraseDupsBy sameRange := by
  induction l generalizing kept with
  | nil => simp [dropSame]
  | cons a l ih =>
    have hl := List.pairwise_cons.mp h
    unfold dropSame
    by_cases hak : a.sameRange kept = true
    · rw [if_pos hak, List.filter_cons_of_neg (by simp [hak]),
        ih kept (h.sublist ((List.sublist_cons_self a l).cons_cons kept))]
    · have hall : l.filter (fun a => a.sameRange kept = false) = l := by
        refine List.filter_eq_self.mpr fun x hx => ?_
        rw [decide_eq_true_eq, ← Bool.not_eq_true]
        exact fun hxk => not_sameRange_later (hl.1 a List.mem_cons_self) hak
          ((List.pairwise_cons.mp hl.2).1 x hx) hxk
      rw [if_neg hak, List.filter_cons_of_pos (by simpa using hak), hall, List.eraseDupsBy_cons,
        ih a hl.2]

/-! ## Sorting -/

theorem sort_pairwise (cs : List Candidate) :
    (cs.mergeSort precedes).Pairwise (fun a b => a.precedes b = true) :=
  List.pairwise_mergeSort precedes_trans precedes_total cs

theorem filter_sort (cs : List Candidate) (c : Candidate) :
    (cs.mergeSort precedes).filter c.ties = cs.filter c.ties := by
  have hsorted : (cs.filter c.ties).Pairwise (fun a b => a.precedes b = true) := by
    refine List.pairwise_of_forall_mem_list fun a ha b hb => ?_
    have hca := (ties_iff _ _).mp (List.mem_filter.mp ha).2
    have hcb := (ties_iff _ _).mp (List.mem_filter.mp hb).2
    rw [sameRange_iff] at hca hcb
    rw [precedes_iff]
    omega
  have hsub := (List.sublist_mergeSort precedes_trans precedes_total hsorted
    List.filter_sublist).filter c.ties
  rw [List.filter_filter] at hsub
  simp only [Bool.and_self] at hsub
  have hlen := ((List.mergeSort_perm cs precedes).filter c.ties).length_eq
  exact (hsub.eq_of_length hlen.symm).symm

theorem precedes_of_sorted {c : Candidate} {l : List Candidate}
    (h : (c :: l).Pairwise (fun a b => a.precedes b = true)) {d : Candidate} (hd : d ∈ c :: l) :
    c.precedes d = true := by
  rcases List.mem_cons.mp hd with rfl | hd
  · exact ((ties_iff_precedes d d).mp (ties_self d)).1
  · exact (List.pairwise_cons.mp h).1 d hd

theorem mem_of_filter_ties {l m : List Candidate}
    (h : ∀ c : Candidate, l.filter c.ties = m.filter c.ties) {a : Candidate} (ha : a ∈ l) : a ∈ m := by
  have hmem := List.mem_filter.mpr ⟨ha, ties_self a⟩
  rw [h a] at hmem
  exact (List.mem_filter.mp hmem).1

/-- Two sorted lists that agree on every set of candidates that tie are equal. -/
theorem eq_of_sorted {l m : List Candidate}
    (hl : l.Pairwise (fun a b => a.precedes b = true))
    (hm : m.Pairwise (fun a b => a.precedes b = true))
    (h : ∀ c : Candidate, l.filter c.ties = m.filter c.ties) : l = m := by
  induction l generalizing m with
  | nil =>
    cases m with
    | nil => rfl
    | cons b m => exact absurd (mem_of_filter_ties (fun c => (h c).symm) List.mem_cons_self) (by simp)
  | cons a l ih =>
    cases m with
    | nil => exact absurd (mem_of_filter_ties h List.mem_cons_self) (by simp)
    | cons b m =>
      -- each head is in the other list, so they tie, and each is the first that ties with it
      have hba : b.precedes a = true :=
        precedes_of_sorted hm (mem_of_filter_ties h List.mem_cons_self)
      have hab : a.precedes b = true :=
        precedes_of_sorted hl (mem_of_filter_ties (fun c => (h c).symm) List.mem_cons_self)
      have heq : a = b := by
        have := h a
        rw [List.filter_cons_of_pos (ties_self a),
          List.filter_cons_of_pos ((ties_iff_precedes a b).mpr ⟨hab, hba⟩)] at this
        exact (List.cons.inj this).1
      subst heq
      rw [ih (List.pairwise_cons.mp hl).2 (List.pairwise_cons.mp hm).2 fun c => ?_]
      have := h c
      rw [List.filter_cons, List.filter_cons] at this
      split at this
      · exact (List.cons.inj this).2
      · exact this

/-- `ds` is `cs` in another order, in which candidates that tie keep their order. -/
structure Reordered (cs ds : List Candidate) : Prop where
  perm : cs.Perm ds
  ties : ∀ c : Candidate, cs.filter c.ties = ds.filter c.ties

/-- Candidates none of which tie may come in any order. -/
theorem reordered_of_perm {cs ds : List Candidate}
    (h : cs.Pairwise (fun a b => ¬ a.ties b = true)) (hperm : cs.Perm ds) : Reordered cs ds where
  perm := hperm
  ties := by
    intro c
    have hf := hperm.filter c.ties
    have hp := h.sublist (List.filter_sublist (p := c.ties))
    cases hl : cs.filter c.ties with
    | nil =>
      rw [hl] at hf
      exact hf.nil_eq
    | cons a l =>
      cases l with
      | nil =>
        rw [hl] at hf
        exact (List.perm_singleton.mp hf.symm).symm
      | cons b l =>
        rw [hl] at hp
        have ha : a ∈ cs.filter c.ties := by rw [hl]; exact List.mem_cons_self
        have hb : b ∈ cs.filter c.ties := by
          rw [hl]
          exact List.mem_cons_of_mem _ List.mem_cons_self
        have hca := (ties_iff _ _).mp (List.mem_filter.mp ha).2
        have hcb := (ties_iff _ _).mp (List.mem_filter.mp hb).2
        have hab : a.ties b = true := by
          rw [ties_iff, sameRange_iff]
          rw [sameRange_iff] at hca hcb
          omega
        exact absurd hab ((List.pairwise_cons.mp hp).1 b List.mem_cons_self)

/-! ## Survivors -/

/-- Survivors stand strictly in the order of their spans, so no two cover the same bytes. -/
theorem survivors_before (cs : List Candidate) :
    (survivors cs).Pairwise (fun a b => a.span.Before b.span) := by
  have hbetween : ∀ a b c : Candidate, a.precedes b = true → b.precedes c = true →
      c.sameRange a = true → b.sameRange a = true := by
    intro a b c hab hbc hca
    by_cases hba : b.sameRange a = true
    · exact hba
    · exact absurd hca (not_sameRange_later hab hba hbc)
  exact (pairwise_firstOfRuns hbetween (sort_pairwise cs)).imp fun hab =>
    before_of_precedes hab.1 (Bool.eq_false_iff.mp hab.2)

/-- Every later candidate with the bytes of an earlier one is dropped, and nothing else. -/
theorem survivors_eq_eraseDupsBy (cs : List Candidate) :
    survivors cs = (cs.mergeSort precedes).eraseDupsBy sameRange := by
  have hs := sort_pairwise cs
  unfold survivors
  cases hl : cs.mergeSort precedes with
  | nil => rfl
  | cons a l =>
    rw [hl] at hs
    rw [firstOfRuns, dropSame_eq_eraseDupsBy a l hs, List.eraseDupsBy_cons]

/-- The one survivor of a byte range is the first candidate of the range in the sorted list. -/
theorem filter_survivors (cs : List Candidate) (c : Candidate) :
    (survivors cs).filter c.sameRange = ((cs.mergeSort precedes).find? c.sameRange).toList := by
  have hs := sort_pairwise cs
  unfold survivors
  cases hl : cs.mergeSort precedes with
  | nil => rfl
  | cons a l =>
    rw [hl] at hs
    unfold firstOfRuns
    by_cases hca : c.sameRange a = true
    · rw [List.filter_cons_of_pos hca, filter_dropSame c a l hs, if_pos hca,
        List.find?_cons_of_pos hca]
      rfl
    · rw [List.filter_cons_of_neg hca, filter_dropSame c a l hs, if_neg hca,
        List.find?_cons_of_neg hca]

theorem survivors_sublist (cs : List Candidate) :
    (survivors cs).Sublist (cs.mergeSort precedes) :=
  firstOfRuns_sublist _ _

theorem mem_of_mem_survivors {cs : List Candidate} {c : Candidate} (h : c ∈ survivors cs) :
    c ∈ cs :=
  (List.mergeSort_perm cs precedes).mem_iff.mp ((survivors_sublist cs).subset h)

theorem length_survivors_le (cs : List Candidate) : (survivors cs).length ≤ cs.length := by
  rw [← (List.mergeSort_perm cs precedes).length_eq]
  exact (survivors_sublist cs).length_le

/-- In order, the first candidate of a range has the least clause, and it is the first of those that
tie with it. -/
theorem first_of_range {l : List Candidate} (h : l.Pairwise (fun a b => a.precedes b = true))
    {c d : Candidate} (hd : l.find? c.sameRange = some d) :
    (∀ x ∈ l, c.sameRange x = true → d.clause ≤ x.clause) ∧ l.find? d.ties = some d := by
  have hcd : c.sameRange d = true := List.find?_some hd
  obtain ⟨-, before, after, rfl, hbefore⟩ := List.find?_eq_some_iff_append.mp hd
  have hafter := (List.pairwise_cons.mp (List.pairwise_append.mp h).2.1).1
  constructor
  · intro x hx hcx
    rcases List.mem_append.mp hx with hx | hx
    · have hnot := hbefore x hx
      rw [hcx] at hnot
      cases hnot
    · rcases List.mem_cons.mp hx with rfl | hx
      · exact Nat.le_refl _
      · have hprecedes := hafter x hx
        rw [precedes_iff] at hprecedes
        rw [sameRange_iff] at hcd hcx
        omega
  · refine List.find?_eq_some_iff_append.mpr ⟨ties_self d, before, after, rfl, fun x hx => ?_⟩
    have hnot := hbefore x hx
    simp only [Bool.not_eq_true', ← Bool.not_eq_true] at hnot ⊢
    rw [ties_iff]
    rintro ⟨hdx, -⟩
    rw [sameRange_iff] at *
    omega

/-- The survivor of a candidate's bytes has the least clause of all candidates with these bytes, and of
several with that clause it is the earliest. -/
theorem exists_survivor {cs : List Candidate} {c : Candidate} (hc : c ∈ cs) :
    ∃ before d after, cs = before ++ d :: after ∧
      (survivors cs).filter c.sameRange = [d] ∧ c.sameRange d = true ∧
      (∀ x ∈ before, c.sameRange x = true → d.clause < x.clause) ∧
      (∀ x ∈ after, c.sameRange x = true → d.clause ≤ x.clause) := by
  have hself : c.sameRange c = true := (sameRange_iff c c).mpr ⟨rfl, rfl⟩
  obtain ⟨d, hd⟩ : ∃ d, (cs.mergeSort precedes).find? c.sameRange = some d := by
    rw [← Option.isSome_iff_exists, List.find?_isSome]
    exact ⟨c, List.mem_mergeSort.mpr hc, hself⟩
  have hcd : c.sameRange d = true := List.find?_some hd
  obtain ⟨hleast, htie⟩ := first_of_range (sort_pairwise cs) hd
  replace hleast : ∀ x ∈ cs, c.sameRange x = true → d.clause ≤ x.clause :=
    fun x hx => hleast x (List.mem_mergeSort.mpr hx)
  -- sorting keeps those that tie in their order, so `d` is the first of them in `cs` as well
  rw [← List.head?_filter, filter_sort, List.head?_filter] at htie
  obtain ⟨-, before, after, rfl, hbefore⟩ := List.find?_eq_some_iff_append.mp htie
  refine ⟨before, d, after, rfl, ?_, hcd, fun x hx hcx => ?_, fun x hx => ?_⟩
  · rw [filter_survivors, hd]
    rfl
  · have hle := hleast x (List.mem_append_left _ hx) hcx
    have hnot := hbefore x hx
    simp only [Bool.not_eq_true', ← Bool.not_eq_true] at hnot
    rw [ties_iff] at hnot
    have hdx : d.sameRange x = true := by
      rw [sameRange_iff] at *
      omega
    rcases Nat.lt_or_eq_of_le hle with hlt | heq
    · exact hlt
    · exact absurd ⟨hdx, heq⟩ hnot
  · exact hleast x (List.mem_append_right _ (List.mem_cons_of_mem _ hx))

theorem survivors_eq_of_reordered {cs ds : List Candidate} (h : Reordered cs ds) :
    survivors cs = survivors ds := by
  have hsort : cs.mergeSort precedes = ds.mergeSort precedes := by
    refine eq_of_sorted (sort_pairwise cs) (sort_pairwise ds) fun c => ?_
    rw [filter_sort, filter_sort, h.ties c]
  unfold survivors
  rw [hsort]

/-- A candidate on the first line of a file. -/
def onFirstLine (kind : Kind) (clause start stop : Nat) (name : String) : Candidate :=
  ⟨kind, clause, ⟨start, stop, 1, start + 1, 1, stop + 1⟩, some name, none, none, []⟩

end Forest

end CodeAtlas
