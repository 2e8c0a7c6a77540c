import CodeAtlas.Proofs.Text.Collapsing
import CodeAtlas.Report.Outline

/-!
Line breaks of every kind: line feed and carriage return, vertical tab and form feed, next line, line
separator and paragraph separator.  They are blanks, so a text with no blank but the space has none of
them.  A page gives back the lines that were put into it, each of them cut where it has a break of
its own:

    brokenLines (page lines) = lines.flatMap brokenLines ++ [""]      (brokenLines_page)
-/

namespace CodeAtlas

namespace Text

def isLineBreak (c : Char) : Bool :=
  let n := c.toNat
  (0x0A ≤ n && n ≤ 0x0D) || n == 0x85 || n == 0x2028 || n == 0x2029

theorem isBlank_of_isLineBreak {c : Char} (h : isLineBreak c = true) : isBlank c = true := by
  simp only [isLineBreak, isBlank, Bool.or_eq_true, Bool.and_eq_true, decide_eq_true_eq,
    beq_iff_eq] at *
  omega

theorem isLineBreak_of_isDigit {c : Char} (h : c.isDigit = true) : isLineBreak c = false := by
  have hrange : 48 ≤ c.toNat ∧ c.toNat ≤ 57 := by
    simp only [Char.isDigit, Bool.and_eq_true, decide_eq_true_eq, UInt32.le_iff_toNat_le,
      ge_iff_le] at h
    exact h
  have hne : isLineBreak c ≠ true := by
    simp only [isLineBreak, ne_eq, Bool.or_eq_true, Bool.and_eq_true, decide_eq_true_eq, beq_iff_eq]
    omega
  exact Bool.eq_false_iff.mpr hne

def Unbroken (s : String) : Prop := ∀ c ∈ s.toList, isLineBreak c = false

instance (s : String) : Decidable (Unbroken s) :=
  decidable_of_iff (s.toList.all (fun c => !isLineBreak c) = true) (by simp [Unbroken])

theorem unbroken_append {s t : String} : Unbroken (s ++ t) ↔ Unbroken s ∧ Unbroken t := by
  unfold Unbroken
  rw [String.toList_append, List.forall_mem_append]

theorem unbroken_toString (n : Nat) : Unbroken (toString n) := by
  have hdigits : (toString n).toList = Nat.toDigits 10 n := Nat.toList_repr
  intro c hc
  rw [hdigits] at hc
  exact isLineBreak_of_isDigit (Nat.isDigit_of_mem_toDigits (by omega) (by omega) hc)

def OnlySpaces (s : String) : Prop := ∀ c ∈ s.toList, isBlank c = true → c = ' '

theorem OnlySpaces.unbroken {s : String} (h : OnlySpaces s) : Unbroken s := by
  intro c hc
  refine Bool.eq_false_iff.mpr fun hbreak => ?_
  rw [h c hc (isBlank_of_isLineBreak hbreak)] at hbreak
  exact absurd hbreak (by decide)

/-- The stretches of a text between its line breaks. -/
def brokenLines (s : String) : List String :=
  (s.toList.splitOnP isLineBreak).map String.ofList

theorem brokenLines_of_unbroken {s : String} (h : Unbroken s) : brokenLines s = [s] := by
  rw [brokenLines, List.splitOnP_eq_singleton h, List.map_singleton, String.ofList_toList]

theorem flatMap_brokenLines {lines : List String} (h : ∀ s ∈ lines, Unbroken s) :
    lines.flatMap brokenLines = lines := by
  induction lines with
  | nil => rfl
  | cons s lines ih =>
    obtain ⟨hs, hlines⟩ := List.forall_mem_cons.mp h
    rw [List.flatMap_cons, brokenLines_of_unbroken hs, ih hlines]
    rfl

theorem brokenLines_append (s : String) {c : Char} (hc : isLineBreak c = true) (t : String) :
    brokenLines (s ++ String.singleton c ++ t) = brokenLines s ++ brokenLines t := by
  have hlist : (s ++ String.singleton c ++ t).toList = s.toList ++ c :: t.toList := by simp
  unfold brokenLines
  rw [hlist, List.splitOnP_append_cons s.toList t.toList hc, List.map_append]

end Text

namespace Outline

open Text

theorem page_cons (line : String) (lines : List String) :
    page (line :: lines) = line ++ String.singleton '\n' ++ page lines := by
  apply String.toList_inj.mp
  simp [page, String.toList_join]

/-- The lines of a page are the lines that were put into it, each cut at its own breaks. -/
theorem brokenLines_page (lines : List String) :
    brokenLines (page lines) = lines.flatMap brokenLines ++ [""] := by
  induction lines with
  | nil => rfl
  | cons line lines ih =>
    rw [page_cons, brokenLines_append line (by decide), ih, List.flatMap_cons, List.append_assoc]

end Outline

end CodeAtlas
