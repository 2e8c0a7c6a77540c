import CodeAtlas.Profile.Registry
import CodeAtlas.Proofs.Keyed

/-!
The registry as a function of its history.  A key belongs to the last registered profile that
declares it, until the id of that profile is registered again; then nobody has it
(`Holds`).  The invariant is `Tracks`, of the two tables alike: no key is bound twice, and the owner
of a key is the profile that holds it.  Registering keeps it because a profile that replaces another
first gives up its keys, and a table never names an id that is not registered:

    Tracks keys (history ++ [p]) ((b.release p.id).bindAll (keys p) p.id)       (tracks_register)

`registry_follows_history` is the result for any sequence of registrations.
-/

namespace CodeAtlas

/-! ## Tables -/

namespace Bindings

theorem owner?_bind (b : Bindings) (key owner k : String) :
    (b.bind key owner).owner? k = if k = key then some owner else b.owner? k := by
  unfold bind owner?
  by_cases hk : k = key
  · rw [if_pos hk, List.find?_cons_of_pos (by simp [hk])]
    rfl
  · rw [if_neg hk, List.find?_cons_of_neg (by simpa using fun h => hk h.symm)]
    congr 1
    rw [List.find?_filter]
    congr 1
    funext e
    by_cases he : e.1 = k
    · simp [he, hk]
    · simp [he]

theorem owner?_bindAll (b : Bindings) (keys : List String) (owner k : String) :
    (b.bindAll keys owner).owner? k = if k ∈ keys then some owner else b.owner? k := by
  unfold bindAll
  induction keys generalizing b with
  | nil => simp
  | cons key keys ih =>
    rw [List.foldl_cons, ih, owner?_bind]
    by_cases hk : k ∈ keys
    · simp [hk]
    · simp [hk]

/-- No key is bound twice. -/
def Unique (b : Bindings) : Prop := (b.map (fun e => e.1)).Nodup

theorem Unique.filter {b : Bindings} (h : b.Unique) (p : String × String → Bool) :
    Unique (b.filter p) :=
  h.sublist (List.filter_sublist.map _)

theorem Unique.bind {b : Bindings} (h : b.Unique) (key owner : String) :
    (b.bind key owner).Unique := by
  refine List.nodup_cons.mpr ⟨?_, h.filter _⟩
  intro hmem
  obtain ⟨e, he, hkey⟩ := List.mem_map.mp hmem
  have := (List.mem_filter.mp he).2
  simp only [bne_iff_ne] at this
  exact this hkey

theorem Unique.bindAll {b : Bindings} (h : b.Unique) (keys : List String) (owner : String) :
    (b.bindAll keys owner).Unique := by
  unfold Bindings.bindAll
  induction keys generalizing b with
  | nil => exact h
  | cons key keys ih => exact ih (h.bind key owner)

theorem Unique.owner?_iff {b : Bindings} (h : b.Unique) (k o : String) :
    b.owner? k = some o ↔ (k, o) ∈ b := by
  unfold owner?
  rw [Option.map_eq_some_iff]
  constructor
  · rintro ⟨e, he, rfl⟩
    obtain ⟨hmem, rfl⟩ := (find?_key_iff _ h k e).mp he
    exact hmem
  · intro hmem
    exact ⟨(k, o), (find?_key_iff _ h k (k, o)).mpr ⟨hmem, rfl⟩, rfl⟩

/-- Giving up the keys of an owner takes nothing from the others. -/
theorem Unique.owner?_release {b : Bindings} (h : b.Unique) (owner k o : String) :
    (b.release owner).owner? k = some o ↔ b.owner? k = some o ∧ o ≠ owner := by
  have hrelease : (b.release owner).Unique := h.filter _
  rw [h.owner?_iff, hrelease.owner?_iff, release, List.mem_filter, bne_iff_ne]

theorem release_eq_self {b : Bindings} {owner : String} (h : ∀ e ∈ b, e.2 ≠ owner) :
    b.release owner = b := by
  refine List.filter_eq_self.mpr fun e he => ?_
  simpa using h e he

end Bindings

/-! ## Histories -/

namespace Registry

def ofHistory (history : List Profile) : Registry :=
  history.foldl register empty

/-- `p` is the last profile that declares, and no later one has its id. -/
def Holds (declares : Profile → Prop) (history : List Profile) (p : Profile) : Prop :=
  ∃ before after, history = before ++ p :: after ∧ declares p ∧
    ∀ q ∈ after, ¬ declares q ∧ q.id ≠ p.id

theorem not_holds_nil (declares : Profile → Prop) (p : Profile) : ¬ Holds declares [] p := by
  rintro ⟨before, after, h, -⟩
  simp at h

/-- One more registration: the new profile holds what it declares, and otherwise whoever held it
still does, unless the id is registered again. -/
theorem holds_snoc (declares : Profile → Prop) (history : List Profile) (p q : Profile) :
    Holds declares (history ++ [p]) q ↔
      (declares p ∧ q = p) ∨ (¬ declares p ∧ p.id ≠ q.id ∧ Holds declares history q) := by
  constructor
  · rintro ⟨before, after, h, hq, hafter⟩
    rcases List.eq_nil_or_concat after with rfl | ⟨later, x, rfl⟩
    · obtain ⟨-, he⟩ := List.append_inj' h rfl
      cases he
      exact Or.inl ⟨hq, rfl⟩
    · rw [List.concat_eq_append, ← List.cons_append, ← List.append_assoc] at h
      obtain ⟨hh, hx⟩ := List.append_inj' h rfl
      cases hx
      have hp := hafter p (by simp)
      exact Or.inr ⟨hp.1, hp.2, before, later, hh, hq, fun r hr => hafter r (by simp [hr])⟩
  · rintro (⟨hp, rfl⟩ | ⟨hp, hid, before, after, rfl, hq, hafter⟩)
    · exact ⟨history, [], rfl, hp, by simp⟩
    · refine ⟨before, after ++ [p], by simp, hq, fun r hr => ?_⟩
      rcases List.mem_append.mp hr with hr | hr
      · exact hafter r hr
      · rw [List.mem_singleton.mp hr]
        exact ⟨hp, hid⟩

/-- Whoever holds anything is the last registration of its id. -/
theorem Holds.latest {declares : Profile → Prop} {history : List Profile} {p : Profile}
    (h : Holds declares history p) : Holds (fun q => q.id = p.id) history p := by
  obtain ⟨before, after, hh, -, hafter⟩ := h
  exact ⟨before, after, hh, rfl, fun q hq => ⟨(hafter q hq).2, (hafter q hq).2⟩⟩

/-! ## The invariant -/

/-- A table in which the owner of a key is the profile that holds it, for the keys that a profile
declares. -/
structure Tracks (keys : Profile → List String) (history : List Profile) (b : Bindings) :
    Prop where
  unique : b.Unique
  owner : ∀ k o, b.owner? k = some o ↔ ∃ p, Holds (fun q => k ∈ keys q) history p ∧ p.id = o

theorem tracks_nil (keys : Profile → List String) : Tracks keys [] [] := by
  refine ⟨List.nodup_nil, fun k o => ?_⟩
  constructor
  · intro h
    cases h
  · rintro ⟨p, hp, -⟩
    exact absurd hp (not_holds_nil _ p)

theorem tracks_register {keys : Profile → List String} {history : List Profile} {b : Bindings}
    (h : Tracks keys history b) (p : Profile) :
    Tracks keys (history ++ [p]) ((b.release p.id).bindAll (keys p) p.id) := by
  refine ⟨(h.unique.filter _).bindAll _ _, fun k o => ?_⟩
  rw [Bindings.owner?_bindAll]
  by_cases hk : k ∈ keys p
  · rw [if_pos hk]
    constructor
    · intro ho
      exact ⟨p, (holds_snoc _ _ _ _).mpr (Or.inl ⟨hk, rfl⟩), Option.some.inj ho⟩
    · rintro ⟨q, hq, rfl⟩
      rcases (holds_snoc _ _ _ _).mp hq with ⟨-, rfl⟩ | ⟨hnot, -, -⟩
      · rfl
      · exact absurd hk hnot
  · rw [if_neg hk, h.unique.owner?_release, h.owner]
    constructor
    · rintro ⟨⟨q, hq, rfl⟩, hne⟩
      exact ⟨q, (holds_snoc _ _ _ _).mpr (Or.inr ⟨hk, fun he => hne he.symm, hq⟩), rfl⟩
    · rintro ⟨q, hq, rfl⟩
      rcases (holds_snoc _ _ _ _).mp hq with ⟨hp, -⟩ | ⟨-, hne, hq⟩
      · exact absurd hp hk
      · exact ⟨⟨q, hq, rfl⟩, fun he => hne he.symm⟩

def extensionKeys (p : Profile) : List String := p.extensions.map normalize

def nameKeys (p : Profile) : List String := (p.id :: p.aliases).map normalize

/-- A registry that is what its history made it. -/
structure Follows (history : List Profile) (r : Registry) : Prop where
  extensions : Tracks extensionKeys history r.extensions
  names : Tracks nameKeys history r.names
  ids : (r.profiles.map (fun p => p.id)).Nodup
  profiles : ∀ p, p ∈ r.profiles ↔ Holds (fun q => q.id = p.id) history p

theorem Follows.registered {history : List Profile} {r : Registry} (h : Follows history r)
    {keys : Profile → List String} {b : Bindings} (hb : Tracks keys history b)
    {e : String × String} (he : e ∈ b) : ∃ p ∈ r.profiles, p.id = e.2 := by
  obtain ⟨p, hp, hid⟩ := (hb.owner e.1 e.2).mp ((hb.unique.owner?_iff e.1 e.2).mpr he)
  exact ⟨p, (h.profiles p).mpr hp.latest, hid⟩

theorem Follows.profile?_iff {history : List Profile} {r : Registry} (h : Follows history r)
    (id : String) (p : Profile) : r.profile? id = some p ↔ p ∈ r.profiles ∧ p.id = id :=
  find?_key_iff Profile.id h.ids id p

/-- Registering an id withdraws whatever the registry had under it, present or not. -/
theorem Follows.register_eq {history : List Profile} {r : Registry} (h : Follows history r)
    (p : Profile) : r.register p =
      { profiles := p :: r.profiles.filter (fun q => q.id != p.id)
        names := (r.names.release p.id).bindAll (nameKeys p) p.id
        extensions := (r.extensions.release p.id).bindAll (extensionKeys p) p.id } := by
  unfold register
  by_cases hp : (r.profile? p.id).isSome
  · rw [if_pos hp]
    rfl
  · -- without a profile of the id there is nothing to withdraw
    have hnone : ∀ q ∈ r.profiles, q.id ≠ p.id := by
      intro q hq hid
      rw [(h.profile?_iff p.id q).mpr ⟨hq, hid⟩] at hp
      exact hp rfl
    have hfree : ∀ {keys : Profile → List String} {b : Bindings}, Tracks keys history b →
        b.release p.id = b := by
      intro keys b hb
      refine Bindings.release_eq_self fun e he hid => ?_
      obtain ⟨q, hq, hqe⟩ := h.registered hb he
      exact hnone q hq (hqe.trans hid)
    have hprofiles : r.profiles.filter (fun q => q.id != p.id) = r.profiles :=
      List.filter_eq_self.mpr fun q hq => by simpa using hnone q hq
    rw [if_neg hp, hfree h.names, hfree h.extensions, hprofiles]
    rfl

theorem Follows.register {history : List Profile} {r : Registry} (h : Follows history r)
    (p : Profile) : Follows (history ++ [p]) (r.register p) := by
  rw [h.register_eq p]
  refine ⟨tracks_register h.extensions p, tracks_register h.names p, ?_, fun q => ?_⟩
  · refine List.nodup_cons.mpr ⟨?_, h.ids.sublist (List.filter_sublist.map _)⟩
    intro hmem
    obtain ⟨q, hq, hid⟩ := List.mem_map.mp hmem
    have := (List.mem_filter.mp hq).2
    simp only [bne_iff_ne] at this
    exact this hid
  · rw [List.mem_cons, List.mem_filter, bne_iff_ne, h.profiles, holds_snoc]
    constructor
    · rintro (rfl | ⟨hq, hne⟩)
      · exact Or.inl ⟨rfl, rfl⟩
      · exact Or.inr ⟨fun he => hne he.symm, fun he => hne he.symm, hq⟩
    · rintro (⟨-, rfl⟩ | ⟨-, hne, hq⟩)
      · exact Or.inl rfl
      · exact Or.inr ⟨hq, fun he => hne he.symm⟩

theorem follows_empty : Follows [] empty where
  extensions := tracks_nil extensionKeys
  names := tracks_nil nameKeys
  ids := List.nodup_nil
  profiles := by
    intro p
    constructor
    · intro h
      cases h
    · intro hp
      exact absurd hp (not_holds_nil _ p)

theorem follows_foldl {past : List Profile} {r : Registry} (h : Follows past r)
    (history : List Profile) : Follows (past ++ history) (history.foldl Registry.register r) := by
  induction history generalizing past r with
  | nil => rwa [List.append_nil]
  | cons p history ih =>
    have := ih (h.register p)
    rwa [List.append_assoc] at this

theorem follows_ofHistory (history : List Profile) : Follows history (ofHistory history) :=
  follows_foldl follows_empty history

/-! ## What the registry answers -/

theorem resolve?_of_extension {r : Registry} {key id : String}
    (h : r.extensions.owner? (normalize key) = some id) : r.resolve? key = r.profile? id := by
  unfold resolve?
  simp only [h]

theorem resolve?_of_no_extension {r : Registry} {key : String}
    (h : r.extensions.owner? (normalize key) = none) :
    r.resolve? key = (r.names.owner? (normalize key)).bind r.profile? := by
  unfold resolve?
  simp only [h]

theorem Follows.profile?_of_holds {history : List Profile} {r : Registry} (h : Follows history r)
    {declares : Profile → Prop} {p : Profile} (hp : Holds declares history p) :
    r.profile? p.id = some p :=
  (h.profile?_iff p.id p).mpr ⟨(h.profiles p).mpr hp.latest, rfl⟩

theorem Follows.resolve?_iff {history : List Profile} {r : Registry} (h : Follows history r)
    (key : String) (p : Profile) :
    r.resolve? key = some p ↔
      Holds (fun q => normalize key ∈ extensionKeys q) history p ∨
      ((∀ q, ¬ Holds (fun q => normalize key ∈ extensionKeys q) history q) ∧
        Holds (fun q => normalize key ∈ nameKeys q) history p) := by
  cases hext : r.extensions.owner? (normalize key) with
  | some id =>
    obtain ⟨q, hq, rfl⟩ := (h.extensions.owner _ _).mp hext
    rw [resolve?_of_extension hext, h.profile?_of_holds hq]
    constructor
    · intro he
      cases he
      exact Or.inl hq
    · rintro (hp | ⟨hnone, -⟩)
      · -- two holders of the key own it under one id, and of an id there is one profile
        have hid := (h.extensions.owner _ _).mpr ⟨p, hp, rfl⟩
        rw [hext] at hid
        rw [← h.profile?_of_holds hq, ← h.profile?_of_holds hp, Option.some.inj hid]
      · exact absurd hq (hnone q)
  | none =>
    have hnone : ∀ q, ¬ Holds (fun q => normalize key ∈ extensionKeys q) history q := by
      intro q hq
      have hid := (h.extensions.owner _ _).mpr ⟨q, hq, rfl⟩
      rw [hext] at hid
      cases hid
    rw [resolve?_of_no_extension hext]
    constructor
    · intro he
      obtain ⟨id, hname, hid⟩ := Option.bind_eq_some_iff.mp he
      obtain ⟨q, hq, rfl⟩ := (h.names.owner _ _).mp hname
      rw [h.profile?_of_holds hq] at hid
      cases hid
      exact Or.inr ⟨hnone, hq⟩
    · rintro (hp | ⟨-, hp⟩)
      · exact absurd hp (hnone p)
      · rw [(h.names.owner _ _).mpr ⟨p, hp, rfl⟩]
        exact h.profile?_of_holds hp

theorem Follows.sorted_lt {history : List Profile} {r : Registry} (h : Follows history r) :
    r.sorted.Pairwise (fun p q => p.id < q.id) := by
  have hle : r.sorted.Pairwise (fun p q => p.id ≤ q.id) :=
    sort_keys_le (fun p => p.id) r.profiles
  have hne : (r.sorted.map (fun p => p.id)).Nodup :=
    ((List.mergeSort_perm r.profiles _).map _).nodup_iff.mpr h.ids
  exact (hle.and (List.pairwise_map.mp hne)).imp fun hpq => lt_of_le_of_ne hpq.1 hpq.2

/-- **The registry is what its history says.**  A key leads to the last profile that declares it as an
extension, if the id of that profile was not registered again; otherwise to the last profile that has
it as its id or an alias, under the same condition; otherwise nowhere.  The profiles are the last
registrations of each id, in the order of their ids, and every owner in a table is registered. -/
theorem registry_follows_history (history : List Profile) :
    (∀ key p, (ofHistory history).resolve? key = some p ↔
      Holds (fun q => normalize key ∈ extensionKeys q) history p ∨
      ((∀ q, ¬ Holds (fun q => normalize key ∈ extensionKeys q) history q) ∧
        Holds (fun q => normalize key ∈ nameKeys q) history p)) ∧
    (∀ p, p ∈ (ofHistory history).sorted ↔ Holds (fun q => q.id = p.id) history p) ∧
    (ofHistory history).sorted.Pairwise (fun p q => p.id < q.id) ∧
    (∀ e ∈ (ofHistory history).names ++ (ofHistory history).extensions,
      ∃ p ∈ (ofHistory history).sorted, p.id = e.2) := by
  have h := follows_ofHistory history
  have hmem : ∀ p, p ∈ (ofHistory history).sorted ↔ p ∈ (ofHistory history).profiles :=
    fun p => List.mem_mergeSort
  refine ⟨h.resolve?_iff, fun p => ?_, h.sorted_lt, fun e he => ?_⟩
  · rw [hmem, h.profiles]
  · rcases List.mem_append.mp he with he | he
    · obtain ⟨p, hp, hid⟩ := h.registered h.names he
      exact ⟨p, (hmem p).mpr hp, hid⟩
    · obtain ⟨p, hp, hid⟩ := h.registered h.extensions he
      exact ⟨p, (hmem p).mpr hp, hid⟩

end Registry

end CodeAtlas
