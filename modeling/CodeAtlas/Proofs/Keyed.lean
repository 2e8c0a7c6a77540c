import CodeAtlas.Text.Words
import Mathlib.Data.List.Nodup
import Mathlib.Data.String.Basic

/-!
Lists of entries with a key.  Among different keys a search by key is membership (`find?_key_iff`),
sorting puts the keys in order (`sort_keys_le`, `sort_keys_lt`), and a list in the order of its keys
is determined by its members (`eq_of_sorted_keys`).
-/

namespace CodeAtlas

theorem find?_key_iff {α κ : Type} [DecidableEq κ] (key : α → κ) {l : List α}
    (h : (l.map key).Nodup) (k : κ) (a : α) :
    l.find? (fun x => key x == k) = some a ↔ a ∈ l ∧ key a = k := by
  constructor
  · intro hf
    exact ⟨List.mem_of_find?_eq_some hf, by simpa using List.find?_some hf⟩
  · rintro ⟨ha, rfl⟩
    cases hf : l.find? (fun x => key x == key a) with
    | none => exact absurd (List.find?_eq_none.mp hf a ha) (by simp)
    | some x =>
      have hx : key x = key a := by simpa using List.find?_some hf
      rw [List.inj_on_of_nodup_map h (List.mem_of_find?_eq_some hf) ha hx]

theorem nodup_keys_append {α κ : Type} (key : α → κ) {l : List α} {a : α}
    (h : (l.map key).Nodup) (hnew : ∀ b ∈ l, key b ≠ key a) : ((l ++ [a]).map key).Nodup := by
  rw [List.map_append]
  refine List.nodup_append.mpr ⟨h, by simp, ?_⟩
  intro k hk k' hk' heq
  obtain ⟨b, hb, rfl⟩ := List.mem_map.mp hk
  rw [List.map_singleton, List.mem_singleton] at hk'
  exact hnew b hb (heq.trans hk')

/-- Sorting by a key puts the keys in order. -/
theorem sort_keys_le {α : Type} (key : α → String) (l : List α) :
    (l.mergeSort (fun a b => Text.lexLe (key a) (key b))).Pairwise (fun a b => key a ≤ key b) := by
  have htrans : ∀ a b c : α, Text.lexLe (key a) (key b) = true → Text.lexLe (key b) (key c) = true →
      Text.lexLe (key a) (key c) = true := by
    simp only [Text.lexLe, decide_eq_true_eq]
    intro a b c hab hbc
    exact le_trans hab hbc
  have htotal : ∀ a b : α, (Text.lexLe (key a) (key b) || Text.lexLe (key b) (key a)) = true := by
    simp only [Text.lexLe, Bool.or_eq_true, decide_eq_true_eq]
    intro a b
    exact le_total (key a) (key b)
  exact (List.pairwise_mergeSort htrans htotal l).imp fun h => of_decide_eq_true h

theorem sort_keys_lt {α : Type} (key : α → String) {l : List α} (h : (l.map key).Nodup) :
    (l.mergeSort (fun a b => Text.lexLe (key a) (key b))).Pairwise (fun a b => key a < key b) := by
  have hdistinct : ((l.mergeSort (fun a b => Text.lexLe (key a) (key b))).map key).Nodup :=
    ((List.mergeSort_perm l _).map key).nodup_iff.mpr h
  have hboth := (sort_keys_le key l).and (List.pairwise_map.mp hdistinct)
  exact hboth.imp fun hab => lt_of_le_of_ne hab.1 hab.2

/-- Two lists in the order of their keys, without repetition, are equal if they have the same
members. -/
theorem eq_of_sorted_keys {α : Type} (key : α → String) {l m : List α}
    (hl : l.Pairwise (fun a b => key a < key b)) (hm : m.Pairwise (fun a b => key a < key b))
    (h : ∀ a, a ∈ l ↔ a ∈ m) : l = m := by
  have hne : ∀ {a b : α}, key a < key b → a ≠ b := by
    rintro a b hab rfl
    exact lt_irrefl _ hab
  have hperm : l.Perm m := (List.perm_ext_iff_of_nodup (hl.imp hne) (hm.imp hne)).mpr h
  exact hperm.eq_of_pairwise (fun a b _ _ hab hba => absurd hab (lt_asymm hba)) hl hm

end CodeAtlas
