import CodeAtlas.Proofs.Registry.History
import Mathlib.Data.List.Perm.Basic

/-!
The kinds of a single profile.  The registry collects every kind with the ids of the profiles that
declare it, profile after profile, and answers the kinds with one id.  The invariant of the collection
is `Collected`: it holds, once each, the pairs of a kind and the id of a profile passed so far that
declares it.  A kind that stands in several groups of one taxonomy is inserted again and changes
nothing, so that profiles are counted and not declarations.

    owners of k    { p.id | p current, p declares k }    is a singleton iff k is local

Which profiles are current is a matter of the history of the registry: a profile that was replaced
owns nothing.  `localKinds_of_history` is the result for any sequence of registrations.
-/

namespace CodeAtlas

/-- Some group of the taxonomy of a profile holds the kind. -/
def Profile.Declares (p : Profile) (k : Kind) : Prop := ∃ g ∈ p.taxonomy.groups, k ∈ g.kinds

theorem Profile.declares_iff (p : Profile) (k : Kind) : p.Declares k ↔ k ∈ p.taxonomy.kinds := by
  unfold Profile.Declares Taxonomy.kinds
  rw [List.mem_flatMap]

theorem Kind.pairwise_all : Kind.all.Pairwise (fun j k => j.order < k.order) := by decide

namespace Registry

/-! ## Collecting the owners -/

/-- The owners of the profiles `passed`: every kind with every id that declares it, once. -/
structure Collected (passed : List Profile) (owners : List (Kind × String)) : Prop where
  once : owners.Nodup
  mem_iff : ∀ k id, (k, id) ∈ owners ↔ ∃ p ∈ passed, p.Declares k ∧ p.id = id

theorem collected_nil : Collected [] [] := by
  refine ⟨List.nodup_nil, fun k id => ?_⟩
  simp

theorem mem_foldl_insert (kinds : List Kind) (id : String) (owners : List (Kind × String))
    (e : Kind × String) :
    e ∈ kinds.foldl (fun owners k => owners.insert (k, id)) owners ↔
      e ∈ owners ∨ e.1 ∈ kinds ∧ e.2 = id := by
  induction kinds generalizing owners with
  | nil => simp
  | cons k kinds ih =>
    rw [List.foldl_cons, ih, List.mem_insert_iff, List.mem_cons, Prod.ext_iff]
    tauto

theorem nodup_foldl_insert (kinds : List Kind) (id : String) {owners : List (Kind × String)}
    (h : owners.Nodup) : (kinds.foldl (fun owners k => owners.insert (k, id)) owners).Nodup := by
  induction kinds generalizing owners with
  | nil => exact h
  | cons k kinds ih => exact ih h.insert

theorem Collected.declare {passed : List Profile} {owners : List (Kind × String)}
    (h : Collected passed owners) (p : Profile) :
    Collected (passed ++ [p])
      (p.taxonomy.kinds.foldl (fun owners k => owners.insert (k, p.id)) owners) := by
  refine ⟨nodup_foldl_insert _ _ h.once, fun k id => ?_⟩
  rw [mem_foldl_insert, h.mem_iff]
  constructor
  · rintro (⟨q, hq, hk, hid⟩ | ⟨hk, hid⟩)
    · exact ⟨q, List.mem_append_left _ hq, hk, hid⟩
    · exact ⟨p, by simp, (p.declares_iff k).mpr hk, hid.symm⟩
  · rintro ⟨q, hq, hk, hid⟩
    rcases List.mem_append.mp hq with hq | hq
    · exact .inl ⟨q, hq, hk, hid⟩
    · cases List.mem_singleton.mp hq
      exact .inr ⟨(p.declares_iff k).mp hk, hid.symm⟩

theorem Collected.foldl {passed : List Profile} {owners : List (Kind × String)}
    (h : Collected passed owners) (profiles : List Profile) :
    Collected (passed ++ profiles) (profiles.foldl (fun owners p =>
      p.taxonomy.kinds.foldl (fun owners k => owners.insert (k, p.id)) owners) owners) := by
  induction profiles generalizing passed owners with
  | nil => rwa [List.append_nil]
  | cons p profiles ih =>
    have := ih (h.declare p)
    rwa [List.append_assoc] at this

theorem collected_kindOwners (r : Registry) : Collected r.sorted r.kindOwners :=
  collected_nil.foldl r.sorted

/-! ## Kinds with one owner -/

theorem kind_of_filter {owners : List (Kind × String)} {k : Kind} {e : Kind × String}
    (h : owners.filter (fun e => e.1 == k) = [e]) : e.1 = k := by
  have he : e ∈ owners.filter (fun e => e.1 == k) := by rw [h]; exact List.mem_singleton_self e
  exact beq_iff_eq.mp (List.mem_filter.mp he).2

theorem mem_localKinds_iff (r : Registry) (k : Kind) (id : String) :
    (k, id) ∈ r.localKinds ↔ r.kindOwners.filter (fun e => e.1 == k) = [(k, id)] := by
  unfold localKinds
  rw [List.mem_filterMap]
  constructor
  · rintro ⟨j, -, h⟩
    split at h
    · next e he =>
      cases h
      rwa [← kind_of_filter he] at he
    · cases h
  · intro h
    exact ⟨k, k.mem_all, by rw [h]⟩

theorem eq_singleton_iff_of_nodup {α : Type} {l : List α} (h : l.Nodup) (a : α) :
    l = [a] ↔ a ∈ l ∧ ∀ b ∈ l, b = a := by
  constructor
  · rintro rfl
    simp
  · rintro ⟨ha, hall⟩
    refine List.perm_singleton.mp ((List.perm_ext_iff_of_nodup h (List.nodup_singleton a)).mpr ?_)
    intro b
    rw [List.mem_singleton]
    constructor
    · exact hall b
    · rintro rfl
      exact ha

/-- A kind is local to an id if the id declares it and every id that declares it is that one. -/
theorem mem_localKinds_iff_owners (r : Registry) (k : Kind) (id : String) :
    (k, id) ∈ r.localKinds ↔
      (k, id) ∈ r.kindOwners ∧ ∀ other, (k, other) ∈ r.kindOwners → other = id := by
  have hmem : ∀ j other, (j, other) ∈ r.kindOwners.filter (fun e => e.1 == k) ↔
      (j, other) ∈ r.kindOwners ∧ j = k := by
    intro j other
    rw [List.mem_filter, beq_iff_eq]
  rw [mem_localKinds_iff, eq_singleton_iff_of_nodup (r.collected_kindOwners.once.filter _), hmem,
    and_iff_left rfl]
  refine and_congr_right fun _ => ?_
  constructor
  · intro h other hother
    exact congrArg Prod.snd (h (k, other) ((hmem k other).mpr ⟨hother, rfl⟩))
  · rintro h ⟨j, other⟩ he
    obtain ⟨hother, rfl⟩ := (hmem j other).mp he
    rw [h other hother]

theorem pairwise_localKinds (r : Registry) :
    r.localKinds.Pairwise (fun d e => d.1.order < e.1.order) := by
  unfold localKinds
  refine List.Pairwise.filterMap _ ?_ Kind.pairwise_all
  intro j k hjk d hd e he
  split at hd
  · next _ hown =>
    cases hd
    split at he
    · next _ hown' =>
      cases he
      rwa [kind_of_filter hown, kind_of_filter hown']
    · cases he
  · cases hd

/-! ## Registries with a history -/

/-- The profile is registered: no later registration has its id. -/
def Current (history : List Profile) (p : Profile) : Prop := Holds (fun q => q.id = p.id) history p

theorem mem_kindOwners_ofHistory (history : List Profile) (k : Kind) (id : String) :
    (k, id) ∈ (ofHistory history).kindOwners ↔
      ∃ p, Current history p ∧ p.Declares k ∧ p.id = id := by
  have h := follows_ofHistory history
  rw [(collected_kindOwners _).mem_iff]
  refine exists_congr fun p => and_congr_left fun _ => ?_
  rw [Registry.sorted, List.mem_mergeSort, h.profiles]
  rfl

theorem Current.eq_of_id {history : List Profile} {p q : Profile} (hp : Current history p)
    (hq : Current history q) (hid : q.id = p.id) : q = p := by
  have h := follows_ofHistory history
  exact List.inj_on_of_nodup_map h.ids ((h.profiles q).mpr hq) ((h.profiles p).mpr hp) hid

/-- **The local kinds are those of exactly one current profile.**  Register any profiles one after
another.  A kind is answered with an id if and only if one profile that is still registered declares
it, no other one does, and that profile has the id; so a kind without an answer is declared by nobody
or by two profiles of different ids.  No kind is answered twice, and they come in their fixed order. -/
theorem localKinds_of_history (history : List Profile) :
    (∀ k id, (k, id) ∈ (ofHistory history).localKinds ↔
      ∃ p, Current history p ∧ p.Declares k ∧ p.id = id ∧
        ∀ q, Current history q → q.Declares k → q = p) ∧
    (∀ k, k ∉ (ofHistory history).localKinds.map (fun e => e.1) ↔
      (∀ p, Current history p → ¬ p.Declares k) ∨
      ∃ p q, Current history p ∧ Current history q ∧ p.Declares k ∧ q.Declares k ∧ p.id ≠ q.id) ∧
    (ofHistory history).localKinds.Pairwise (fun d e => d.1.order < e.1.order) := by
  have hlocal : ∀ k id, (k, id) ∈ (ofHistory history).localKinds ↔
      ∃ p, Current history p ∧ p.Declares k ∧ p.id = id ∧
        ∀ q, Current history q → q.Declares k → q = p := by
    intro k id
    rw [mem_localKinds_iff_owners, mem_kindOwners_ofHistory]
    constructor
    · rintro ⟨⟨p, hp, hk, rfl⟩, hall⟩
      refine ⟨p, hp, hk, rfl, fun q hq hqk => ?_⟩
      exact hp.eq_of_id hq (hall q.id ((mem_kindOwners_ofHistory _ _ _).mpr ⟨q, hq, hqk, rfl⟩))
    · rintro ⟨p, hp, hk, rfl, hall⟩
      refine ⟨⟨p, hp, hk, rfl⟩, fun other hother => ?_⟩
      obtain ⟨q, hq, hqk, rfl⟩ := (mem_kindOwners_ofHistory _ _ _).mp hother
      rw [hall q hq hqk]
  refine ⟨hlocal, fun k => ?_, pairwise_localKinds _⟩
  constructor
  · intro habsent
    by_cases hnone : ∀ p, Current history p → ¬ p.Declares k
    · exact .inl hnone
    · -- some profile declares it, and were it the only one, the kind would be answered
      push Not at hnone
      obtain ⟨p, hp, hk⟩ := hnone
      refine .inr (by_contra fun hsame => habsent ?_)
      push Not at hsame
      refine List.mem_map.mpr ⟨(k, p.id), (hlocal k p.id).mpr ⟨p, hp, hk, rfl, ?_⟩, rfl⟩
      intro q hq hqk
      exact hp.eq_of_id hq (hsame p q hp hq hk hqk).symm
  · intro hcase hanswered
    obtain ⟨⟨j, id⟩, he, rfl⟩ := List.mem_map.mp hanswered
    obtain ⟨p, hp, hk, -, hall⟩ := (hlocal j id).mp he
    rcases hcase with hnone | ⟨q, q', hq, hq', hqk, hqk', hne⟩
    · exact hnone p hp hk
    · rw [hall q hq hqk, hall q' hq' hqk'] at hne
      exact hne rfl

end Registry

end CodeAtlas
