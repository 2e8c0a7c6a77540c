import CodeAtlas.Proofs.Text.ByteOrder

/-!
The bytes of a text are read as the text.  The first byte of a character says how many bytes follow
and what the first of them may be, and every further byte adds six bits (`unitsFrom_tail`); so in
front of any other bytes the bytes of a character give the character (`units_encodeChar`), and

    decode? (encode s) = some s      (decode?_encode)
-/

namespace CodeAtlas.Text.Utf8

/-! ## First bytes -/

theorem lead_one : ∀ k < 128, lead (UInt8.ofNat k) = ([some (Char.ofNat k)], .start) := by
  decide +kernel

theorem lead_two : ∀ k < 32, 2 ≤ k → lead (UInt8.ofNat (k + 192)) = ([], ⟨1, 0x80, 0xBF, k⟩) := by
  decide +kernel

theorem lead_three : ∀ k < 16, lead (UInt8.ofNat (k + 224)) =
    ([], ⟨2, if k = 0 then 0xA0 else 0x80, if k = 13 then 0x9F else 0xBF, k⟩) := by
  decide +kernel

theorem lead_four : ∀ k < 5, lead (UInt8.ofNat (k + 240)) =
    ([], ⟨3, if k = 0 then 0x90 else 0x80, if k = 4 then 0x8F else 0xBF, k⟩) := by
  decide +kernel

/-! ## Further bytes -/

theorem unitsFrom_tail {owed value t : Nat} {low high : UInt8} (ht : t < 64)
    (hlow : low.toNat ≤ t + 128) (hhigh : t + 128 ≤ high.toNat) (bs : List UInt8) :
    unitsFrom ⟨owed + 1, low, high, value⟩ (UInt8.ofNat (t + 128) :: bs) =
      if owed = 0 then some (Char.ofNat (value * 64 + t)) :: unitsFrom .start bs
      else unitsFrom ⟨owed, 0x80, 0xBF, value * 64 + t⟩ bs := by
  obtain ⟨b, hb⟩ : ∃ b, b = UInt8.ofNat (t + 128) := ⟨_, rfl⟩
  have hbyte : b.toNat = t + 128 := by
    rw [hb, UInt8.toNat_ofNat']
    omega
  have hrange : (decide (low ≤ b) && decide (b ≤ high)) = true := by
    simp only [Bool.and_eq_true, decide_eq_true_eq, UInt8.le_iff_toNat_le, hbyte]
    exact ⟨hlow, hhigh⟩
  rw [← hb, unitsFrom]
  simp only [step, hrange, hbyte, Nat.add_sub_cancel, Nat.succ_ne_zero, if_false, if_true]
  by_cases howed : owed = 0
  · simp [howed]
  · simp [howed]

theorem unitsFrom_lead {b : UInt8} {us : List (Option Char)} {s : State} (h : lead b = (us, s))
    (bs : List UInt8) : unitsFrom .start (b :: bs) = us ++ unitsFrom s bs := by
  have hstep : step .start b = (us, s) := h
  rw [unitsFrom, hstep]

theorem toNat_0x80 : (0x80 : UInt8).toNat = 128 := rfl

theorem toNat_0xBF : (0xBF : UInt8).toNat = 191 := rfl

/-! ## Characters by the number of their bytes -/

theorem units_two {v : Nat} (hlow : 0x80 ≤ v) (hhigh : v < 0x800) (bs : List UInt8) :
    unitsFrom .start (UInt8.ofNat (v / 64 % 32 + 192) :: UInt8.ofNat (v % 64 + 128) :: bs) =
      some (Char.ofNat v) :: unitsFrom .start bs := by
  have hbits : v / 64 % 32 * 64 + v % 64 = v := by omega
  have h80 := toNat_0x80
  have hBF := toNat_0xBF
  rw [unitsFrom_lead (lead_two (v / 64 % 32) (by omega) (by omega)), List.nil_append,
    unitsFrom_tail (by omega) (by omega) (by omega), if_pos rfl, hbits]

theorem units_three {v : Nat} (hshort : 0x800 ≤ v) (hvalid : v < 0xD800 ∨ 0xDFFF < v)
    (hlong : v < 0x10000) (bs : List UInt8) :
    unitsFrom .start (UInt8.ofNat (v / 4096 % 16 + 224) :: UInt8.ofNat (v / 64 % 64 + 128) ::
        UInt8.ofNat (v % 64 + 128) :: bs) =
      some (Char.ofNat v) :: unitsFrom .start bs := by
  have hbits : (v / 4096 % 16 * 64 + v / 64 % 64) * 64 + v % 64 = v := by omega
  have h80 := toNat_0x80
  have hBF := toNat_0xBF
  -- no shorter form, and no surrogate
  have hlow : (if v / 4096 % 16 = 0 then 0xA0 else 0x80 : UInt8).toNat ≤ v / 64 % 64 + 128 := by
    split_ifs with hzero
    · exact show 160 ≤ _ by omega
    · omega
  have hhigh : v / 64 % 64 + 128 ≤ (if v / 4096 % 16 = 13 then 0x9F else 0xBF : UInt8).toNat := by
    split_ifs with hlast
    · exact show _ ≤ 159 by omega
    · omega
  rw [unitsFrom_lead (lead_three (v / 4096 % 16) (by omega)), List.nil_append,
    unitsFrom_tail (by omega) hlow hhigh, if_neg one_ne_zero,
    unitsFrom_tail (by omega) (by omega) (by omega), if_pos rfl, hbits]

theorem units_four {v : Nat} (hshort : 0x10000 ≤ v) (hvalid : v < 0x110000) (bs : List UInt8) :
    unitsFrom .start (UInt8.ofNat (v / 262144 % 8 + 240) :: UInt8.ofNat (v / 4096 % 64 + 128) ::
        UInt8.ofNat (v / 64 % 64 + 128) :: UInt8.ofNat (v % 64 + 128) :: bs) =
      some (Char.ofNat v) :: unitsFrom .start bs := by
  have hbits : ((v / 262144 % 8 * 64 + v / 4096 % 64) * 64 + v / 64 % 64) * 64 + v % 64 = v := by
    omega
  have h80 := toNat_0x80
  have hBF := toNat_0xBF
  -- no shorter form, and no code beyond the last one
  have hlow : (if v / 262144 % 8 = 0 then 0x90 else 0x80 : UInt8).toNat ≤ v / 4096 % 64 + 128 := by
    split_ifs with hzero
    · exact show 144 ≤ _ by omega
    · omega
  have hhigh : v / 4096 % 64 + 128 ≤ (if v / 262144 % 8 = 4 then 0x8F else 0xBF : UInt8).toNat := by
    split_ifs with hlast
    · exact show _ ≤ 143 by omega
    · omega
  rw [unitsFrom_lead (lead_four (v / 262144 % 8) (by omega)), List.nil_append,
    unitsFrom_tail (by omega) hlow hhigh, if_neg two_ne_zero,
    unitsFrom_tail (by omega) (by omega) (by omega), if_neg one_ne_zero,
    unitsFrom_tail (by omega) (by omega) (by omega), if_pos rfl, hbits]

theorem units_encodeChar (c : Char) (bs : List UInt8) :
    unitsFrom .start (String.utf8EncodeChar c ++ bs) = some c :: unitsFrom .start bs := by
  have hcode : Char.ofNat c.val.toNat = c := Char.ofNat_toNat c
  have hvalid : c.val.toNat < 0xD800 ∨ 0xDFFF < c.val.toNat ∧ c.val.toNat < 0x110000 := c.valid
  unfold String.utf8EncodeChar
  dsimp only
  generalize c.val.toNat = v at hcode hvalid
  subst hcode
  split_ifs with hone htwo hthree
  · exact unitsFrom_lead (lead_one v (by omega)) bs
  · exact units_two (by omega) (by omega) bs
  · exact units_three (by omega) (by omega) (by omega) bs
  · exact units_four (by omega) (by omega) bs

theorem units_encode (s : String) : units (encode s) = s.toList.map some := by
  rw [encode_eq_flatMap, units]
  induction s.toList with
  | nil => rfl
  | cons c cs ih => rw [List.flatMap_cons, units_encodeChar, ih, List.map_cons]

/-- The bytes of a text are read as the text. -/
theorem decode?_encode (s : String) : decode? (encode s) = some s := by
  have hall : (s.toList.map some).mapM id = some s.toList := by
    rw [List.mapM_map]
    simpa using List.mapM_pure (m := Option) (l := s.toList) (f := id)
  rw [decode?, units_encode, hall, Option.map_some, String.ofList_toList]

end CodeAtlas.Text.Utf8
