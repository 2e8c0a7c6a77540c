import CodeAtlas.Text.Utf8
import Mathlib.Data.String.Basic
import Mathlib.Tactic.SplitIfs

/-!
The order of texts is the order of their bytes.  The bytes of a character start with one that tells
their number, and further bytes hold six bits each, from the highest down; so of two characters the
one with the smaller code has the smaller bytes at the first difference (`encodeChar_append_lt`), and
the same holds for texts (`encode_lt_iff`).
-/

namespace CodeAtlas.Text.Utf8

theorem byte_lt_iff {m n : Nat} (hm : m < 256) (hn : n < 256) :
    UInt8.ofNat m < UInt8.ofNat n ↔ m < n := by
  rw [UInt8.lt_iff_toNat_lt, UInt8.toNat_ofNat', UInt8.toNat_ofNat']
  omega

theorem byte_eq_iff {m n : Nat} (hm : m < 256) (hn : n < 256) :
    UInt8.ofNat m = UInt8.ofNat n ↔ m = n := by
  rw [← UInt8.toNat_inj, UInt8.toNat_ofNat', UInt8.toNat_ofNat']
  omega

/-- The bytes of two different characters differ before either of them ends. -/
theorem encodeChar_append_lt {a b : Char} (h : a < b) (l m : List UInt8) :
    String.utf8EncodeChar a ++ l < String.utf8EncodeChar b ++ m := by
  have hlt : a.val.toNat < b.val.toNat := h
  have hbound : b.val.toNat < 0x110000 := by
    rcases b.valid with hsmall | ⟨-, hlarge⟩
    · exact hsmall.trans (by decide)
    · exact hlarge
  -- groups of six bits, one from the other
  have hsquare : ∀ v : Nat, v / 4096 = v / 64 / 64 := by omega
  have hcube : ∀ v : Nat, v / 262144 = v / 64 / 64 / 64 := by omega
  unfold String.utf8EncodeChar
  dsimp only
  split_ifs <;>
    simp (disch := omega) only [List.cons_append, List.cons_lt_cons_iff, byte_lt_iff,
      byte_eq_iff, hsquare, hcube] <;>
    omega

theorem flatMap_encodeChar_lt {cs ds : List Char} (h : cs < ds) :
    cs.flatMap String.utf8EncodeChar < ds.flatMap String.utf8EncodeChar := by
  induction cs generalizing ds with
  | nil =>
    cases ds with
    | nil => exact absurd h (by simp)
    | cons d ds =>
      cases hbytes : (d :: ds).flatMap String.utf8EncodeChar with
      | nil => simp at hbytes
      | cons b bs => exact List.nil_lt_cons b bs
  | cons c cs ih =>
    cases ds with
    | nil => exact absurd h (by simp)
    | cons d ds =>
      rw [List.flatMap_cons, List.flatMap_cons]
      rcases List.cons_lt_cons_iff.mp h with hcd | ⟨rfl, htail⟩
      · exact encodeChar_append_lt hcd _ _
      · exact List.append_left_lt (ih htail)

theorem encode_eq_flatMap (s : String) : encode s = s.toList.flatMap String.utf8EncodeChar := by
  have hbytes : s.toUTF8 = s.toList.utf8Encode := by
    rw [← String.toByteArray_ofList, String.ofList_toList]
    rfl
  unfold encode
  rw [hbytes]
  unfold List.utf8Encode
  rw [List.data_toByteArray]

theorem encode_lt_of_lt {s t : String} (h : s < t) : encode s < encode t := by
  rw [encode_eq_flatMap, encode_eq_flatMap]
  exact flatMap_encodeChar_lt (String.lt_iff_toList_lt.mp h)

/-- Texts are in the order of their bytes. -/
theorem encode_lt_iff (s t : String) : encode s < encode t ↔ s < t := by
  refine ⟨fun h => ?_, encode_lt_of_lt⟩
  rcases lt_trichotomy s t with hlt | rfl | hgt
  · exact hlt
  · exact absurd h (List.lt_irrefl _)
  · exact absurd h (List.lt_asymm (encode_lt_of_lt hgt))

end CodeAtlas.Text.Utf8
