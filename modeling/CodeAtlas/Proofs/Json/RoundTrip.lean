import CodeAtlas.Json.Decode
import CodeAtlas.Proofs.Json.Lexing

/-!
Reading back what was written.  The tokens of a value are read as the value, in front of any other
tokens, if the reader has room for its levels (`depth`) and one unit of fuel for each token
(`readable_of_whole`); so a value that nests fewer levels than the limit is read from its text:

    Whole v → v.depth < limit → read limit (pretty v) = some v      (read_pretty)

A record that is written as an object is read field by field (`given_written`), whether or not the
fields that may be left out are there.
-/

namespace CodeAtlas.Json

mutual

/-- How many arrays and objects stand inside one another. -/
def depth : Json → Nat
  | .array items => depthOfItems items + 1
  | .object fields => depthOfFields fields + 1
  | _ => 0

def depthOfItems : List Json → Nat
  | [] => 0
  | v :: vs => max (depth v) (depthOfItems vs)

def depthOfFields : List (String × Json) → Nat
  | [] => 0
  | (_, v) :: fs => max (depth v) (depthOfFields fs)

end

theorem exists_toTokens (v : Json) : ∃ t ts, v.toTokens = t :: ts ∧ t ≠ .closeArray := by
  cases v <;> simp [toTokens]

theorem valueWithin_openArray {room : Nat} (hroom : 1 < room) (fuel : Nat) (v : Json)
    (vs : List Json) (ts : List Token) :
    valueWithin (fuel + 1) room (.openArray :: (itemTokens (v :: vs) ++ ts)) =
      (itemsWithin fuel (room - 1) (itemTokens (v :: vs) ++ ts)).map
        (fun r => (.array r.1, r.2)) := by
  obtain ⟨t, us, hv, ht⟩ := exists_toTokens v
  have hitems : ∃ us, itemTokens (v :: vs) ++ ts = t :: us := by
    cases vs <;> simp [itemTokens, hv]
  obtain ⟨us, hus⟩ := hitems
  rw [hus, valueWithin]
  · rw [if_neg (by omega)]
  · intro rest heq
    exact ht (List.cons.inj heq).1

theorem valueWithin_openObject {room : Nat} (hroom : 1 < room) (fuel : Nat) (f : String × Json)
    (fs : List (String × Json)) (ts : List Token) :
    valueWithin (fuel + 1) room (.openObject :: (fieldTokens (f :: fs) ++ ts)) =
      (fieldsWithin fuel (room - 1) (fieldTokens (f :: fs) ++ ts)).map
        (fun r => (.object r.1, r.2)) := by
  have hfields : ∃ us, fieldTokens (f :: fs) ++ ts = .leaf (.text f.1) :: us := by
    cases fs <;> simp [fieldTokens]
  obtain ⟨us, hus⟩ := hfields
  rw [hus, valueWithin]
  · rw [if_neg (by omega)]
  · intro rest heq
    cases (List.cons.inj heq).1

/-- The tokens of a value are read as the value, whatever tokens follow. -/
def Readable (v : Json) : Prop :=
  ∀ (fuel room : Nat) (ts : List Token), v.toTokens.length ≤ fuel → v.depth < room →
    valueWithin fuel room (v.toTokens ++ ts) = some (v, ts)

theorem readable_of_leaf {v : Json} (h : v.toTokens = [.leaf v]) : Readable v := by
  intro fuel room ts hfuel hroom
  rw [h, List.length_singleton] at hfuel
  obtain ⟨fuel, rfl⟩ : ∃ f, fuel = f + 1 := ⟨fuel - 1, by omega⟩
  rw [h, List.singleton_append, valueWithin]

theorem itemsWithin_itemTokens {items : List Json} (hne : items ≠ []) (h : ∀ v ∈ items, Readable v)
    {fuel room : Nat} (hfuel : (itemTokens items).length ≤ fuel) (hroom : depthOfItems items < room)
    (ts : List Token) :
    itemsWithin fuel room (itemTokens items ++ ts) = some (items, ts) := by
  induction items generalizing fuel with
  | nil => exact absurd rfl hne
  | cons v vs ih =>
    rw [depthOfItems] at hroom
    have hvalue : Readable v := h v (by simp)
    cases vs with
    | nil =>
      simp only [itemTokens, List.length_append, List.length_cons, List.length_nil] at hfuel
      obtain ⟨fuel, rfl⟩ : ∃ f, fuel = f + 1 := ⟨fuel - 1, by omega⟩
      have hv := hvalue fuel room (.closeArray :: ts) (by omega) (by omega)
      simp only [itemTokens, List.append_assoc, List.cons_append, List.nil_append, itemsWithin, hv]
    | cons w ws =>
      simp only [itemTokens, List.length_append, List.length_cons] at hfuel
      obtain ⟨fuel, rfl⟩ : ∃ f, fuel = f + 1 := ⟨fuel - 1, by omega⟩
      have hv := hvalue fuel room (.comma :: (itemTokens (w :: ws) ++ ts)) (by omega) (by omega)
      have hrest : itemsWithin fuel room (itemTokens (w :: ws) ++ ts) = some (w :: ws, ts) :=
        ih (by simp) (fun u hu => h u (by simp [hu])) (by omega) (by omega)
      simp only [itemTokens, List.append_assoc, List.cons_append, itemsWithin, hv, hrest,
        Option.map_some]

theorem fieldsWithin_fieldTokens {fields : List (String × Json)} (hne : fields ≠ [])
    (h : ∀ f ∈ fields, Readable f.2) {fuel room : Nat}
    (hfuel : (fieldTokens fields).length ≤ fuel) (hroom : depthOfFields fields < room)
    (ts : List Token) :
    fieldsWithin fuel room (fieldTokens fields ++ ts) = some (fields, ts) := by
  induction fields generalizing fuel with
  | nil => exact absurd rfl hne
  | cons f fs ih =>
    obtain ⟨k, v⟩ := f
    have hvalue : Readable v := h (k, v) (by simp)
    rw [depthOfFields] at hroom
    cases fs with
    | nil =>
      simp only [fieldTokens, List.length_append, List.length_cons, List.length_nil] at hfuel
      obtain ⟨fuel, rfl⟩ : ∃ f, fuel = f + 1 := ⟨fuel - 1, by omega⟩
      have hv := hvalue fuel room (.closeObject :: ts) (by omega) (by omega)
      simp only [fieldTokens, List.append_assoc, List.cons_append, List.nil_append, fieldsWithin, hv]
    | cons g gs =>
      simp only [fieldTokens, List.length_append, List.length_cons] at hfuel
      obtain ⟨fuel, rfl⟩ : ∃ f, fuel = f + 1 := ⟨fuel - 1, by omega⟩
      have hv := hvalue fuel room (.comma :: (fieldTokens (g :: gs) ++ ts)) (by omega) (by omega)
      have hrest : fieldsWithin fuel room (fieldTokens (g :: gs) ++ ts) = some (g :: gs, ts) :=
        ih (by simp) (fun u hu => h u (by simp [hu])) (by omega) (by omega)
      simp only [fieldTokens, List.append_assoc, List.cons_append, fieldsWithin, hv, hrest,
        Option.map_some]

theorem readable_of_whole {v : Json} (h : Whole v) : Readable v := by
  induction h with
  | null => exact readable_of_leaf (by simp [toTokens])
  | bool b => exact readable_of_leaf (by simp [toTokens])
  | natural hn => exact readable_of_leaf (by simp [toTokens])
  | text s => exact readable_of_leaf (by simp [toTokens])
  | @array items h ih =>
    intro fuel room ts hfuel hroom
    rw [toTokens, List.length_cons] at hfuel
    rw [depth] at hroom
    obtain ⟨fuel, rfl⟩ : ∃ f, fuel = f + 1 := ⟨fuel - 1, by omega⟩
    rw [toTokens, List.cons_append]
    cases items with
    | nil => simp [itemTokens, valueWithin, show ¬room ≤ 1 by omega]
    | cons v vs =>
      rw [valueWithin_openArray (by omega),
        itemsWithin_itemTokens (by simp) ih (by omega) (by omega), Option.map_some]
  | @object fields h ih =>
    intro fuel room ts hfuel hroom
    rw [toTokens, List.length_cons] at hfuel
    rw [depth] at hroom
    obtain ⟨fuel, rfl⟩ : ∃ f, fuel = f + 1 := ⟨fuel - 1, by omega⟩
    rw [toTokens, List.cons_append]
    cases fields with
    | nil => simp [fieldTokens, valueWithin, show ¬room ≤ 1 by omega]
    | cons f fs =>
      rw [valueWithin_openObject (by omega),
        fieldsWithin_fieldTokens (by simp) ih (by omega) (by omega), Option.map_some]

/-- A value that nests fewer levels than the limit is read back from its text. -/
theorem read_pretty {v : Json} (hwhole : Whole v) {limit : Nat} (hdepth : v.depth < limit) :
    read limit (pretty v) = some v := by
  have hvalue := readable_of_whole hwhole (2 * v.toTokens.length + 1) limit [] (by omega) hdepth
  rw [List.append_nil] at hvalue
  simp only [read, tokens?_pretty hwhole, Option.bind_eq_bind, Option.bind_some, hvalue]

/-! ## Depth -/

theorem depth_le_of_mem {items : List Json} {v : Json} (h : v ∈ items) :
    v.depth ≤ depthOfItems items := by
  induction items with
  | nil => cases h
  | cons w ws ih =>
    rw [depthOfItems]
    rcases List.mem_cons.mp h with rfl | hrest
    · omega
    · have := ih hrest
      omega

theorem depth_le_of_field {fields : List (String × Json)} {f : String × Json} (h : f ∈ fields) :
    f.2.depth ≤ depthOfFields fields := by
  induction fields with
  | nil => cases h
  | cons g gs ih =>
    rw [depthOfFields]
    rcases List.mem_cons.mp h with rfl | hrest
    · omega
    · have := ih hrest
      omega

/-! ## Records -/

namespace Decode

/-- A field of a record that is written as an object: its key, what its absence means, and its value
unless it is left out. -/
structure Written where
  key : String
  absent : Absent
  value : Option Json

/-- The fields as they are written. -/
def writtenFields (row : List Written) : List (String × Json) :=
  row.flatMap fun w => optional w.key w.value

theorem occurrences_append (key : String) (fs gs : List (String × Json)) :
    occurrences key (fs ++ gs) = occurrences key fs ++ occurrences key gs := by
  simp [occurrences]

theorem occurrences_optional (key other : String) (value : Option Json) :
    occurrences key (optional other value) = if other = key then value.toList else [] := by
  cases value with
  | none => simp [optional, occurrences]
  | some v => by_cases h : other = key <;> simp [optional, occurrences, h]

theorem occurrences_of_not_mem {key : String} {row : List Written}
    (h : key ∉ row.map (·.key)) : occurrences key (writtenFields row) = [] := by
  induction row with
  | nil => rfl
  | cons w ws ih =>
    rw [List.map_cons, List.mem_cons, not_or] at h
    rw [writtenFields, List.flatMap_cons, occurrences_append, occurrences_optional,
      if_neg (Ne.symm h.1), List.nil_append]
    exact ih h.2

theorem occurrences_of_mem {row : List Written} (hkeys : (row.map (·.key)).Nodup) {w : Written}
    (h : w ∈ row) : occurrences w.key (writtenFields row) = w.value.toList := by
  induction row with
  | nil => cases h
  | cons u us ih =>
    obtain ⟨hnew, hrest⟩ := List.nodup_cons.mp hkeys
    rw [writtenFields, List.flatMap_cons, occurrences_append, occurrences_optional]
    rcases List.mem_cons.mp h with rfl | hmem
    · have hnone : occurrences w.key (us.flatMap fun w => optional w.key w.value) = [] :=
        occurrences_of_not_mem hnew
      rw [if_pos rfl, hnone, List.append_nil]
    · have hne : u.key ≠ w.key := fun heq => hnew (List.mem_map.mpr ⟨w, hmem, heq.symm⟩)
      rw [if_neg hne, List.nil_append]
      exact ih hrest hmem

theorem fromObject_of_occurrences {fields : List (String × Json)} {row : List Written}
    (h : ∀ w ∈ row, occurrences w.key fields = w.value.toList)
    (hgiven : ∀ w ∈ row, w.absent = .refused → w.value ≠ none) :
    fromObject (row.map fun w => (w.key, w.absent)) fields = some (row.map (·.value)) := by
  induction row with
  | nil => rfl
  | cons w ws ih =>
    have hw := h w (by simp)
    have hrest := ih (fun u hu => h u (by simp [hu])) fun u hu => hgiven u (by simp [hu])
    rw [List.map_cons, fromObject]
    cases hvalue : w.value with
    | none =>
      have hoptional : w.absent ≠ .refused := fun habsent => hgiven w (by simp) habsent hvalue
      simp [hw, hvalue, hoptional, hrest]
    | some v => simp [hw, hvalue, hrest]

/-- A record is read from its object field by field: what was left out is found absent, and the rest
has the values that were written. -/
theorem given_written (row : List Written) (hkeys : (row.map (·.key)).Nodup)
    (hgiven : ∀ w ∈ row, w.absent = .refused → w.value ≠ none) :
    given (row.map fun w => (w.key, w.absent)) (.object (writtenFields row)) =
      some (row.map (·.value)) :=
  fromObject_of_occurrences (fun _ hw => occurrences_of_mem hkeys hw) hgiven

theorem whole_written {row : List Written}
    (h : row.Forall fun w => ∀ v, w.value = some v → Whole v) :
    Whole (.object (writtenFields row)) := by
  refine .object fun f hf => ?_
  obtain ⟨w, hw, hmem⟩ := List.mem_flatMap.mp hf
  cases hvalue : w.value with
  | none => simp [hvalue, optional] at hmem
  | some v =>
    simp only [hvalue, optional, List.mem_singleton] at hmem
    rw [hmem]
    exact List.forall_iff_forall_mem.mp h w hw v hvalue

theorem whole_of_some {v : Json} (h : Whole v) : ∀ w, some v = some w → Whole w := by
  rintro w ⟨⟩
  exact h

theorem whole_of_map {α : Type} {write : α → Json} (h : ∀ a, Whole (write a)) (x : Option α) :
    ∀ v, x.map write = some v → Whole v := by
  intro v hv
  obtain ⟨a, -, rfl⟩ := Option.map_eq_some_iff.mp hv
  exact h a

theorem word64_natural {n : Nat} (h : n < UInt64.size) : word64 (.natural n) = some n :=
  if_pos h

theorem list_array {α : Type} {d : Decoder α} {write : α → Json} {xs : List α}
    (h : ∀ x ∈ xs, d (write x) = some x) : list d (.array (xs.map write)) = some xs := by
  show (xs.map write).mapM d = some xs
  induction xs with
  | nil => rfl
  | cons x xs ih =>
    have hrest := ih fun y hy => h y (by simp [hy])
    rw [List.map_cons, List.mapM_cons, h x (by simp), hrest]
    rfl

theorem perhaps_map {α : Type} {d : Decoder α} {write : α → Json} {x : Option α}
    (hnull : ∀ a, write a ≠ .null) (h : ∀ a ∈ x, d (write a) = some a) :
    perhaps d (x.map write) = some x := by
  cases x with
  | none => rfl
  | some a =>
    rw [Option.map_some, perhaps, nullable, h a rfl, Option.map_some]
    exact hnull a

theorem perhaps_text (s : Option String) : perhaps text (s.map .text) = some s :=
  perhaps_map (fun _ => Json.noConfusion) fun _ _ => rfl

end Decode

end CodeAtlas.Json
