import CodeAtlas.Proofs.Profile.Loading
import CodeAtlas.Proofs.Registry.History
import Mathlib

/-!
What registering takes away.  A registry is additive when every key that a registered profile
declares leads to a registered profile that declares it.  The key need not lead to the same profile,
since a later one may take it over; but a profile that took a key over and is then registered again
without it leaves the key to nobody, although others still declare it.

A key is lost exactly when it has lapsed both as an extension and as a name: whoever declared it
last was registered again since (`Lapsed`).

    (ofHistory history).resolve? key = none ↔ lapsed as an extension ∧ lapsed as a name
                                                                        (resolve?_eq_none_iff)

So a history in which every id is registered once leaves an additive registry, and
`taken_key_is_lost` is a history of three that does not.
-/

namespace CodeAtlas

namespace Registry

/-- The keys that a profile declares in any way, in normal form. -/
def declaredKeys (p : Profile) : List String := extensionKeys p ++ nameKeys p

/-- Every key of a registered profile leads to a registered profile that declares it. -/
def Additive (r : Registry) : Prop :=
  ∀ p ∈ r.sorted, ∀ key, normalize key ∈ declaredKeys p →
    ∃ q ∈ r.sorted, r.resolve? key = some q ∧ normalize key ∈ declaredKeys q

/-- Whoever declared last, if anybody did, has been registered again since. -/
def Lapsed (declares : Profile → Prop) (history : List Profile) : Prop :=
  ∀ before p after, history = before ++ p :: after → declares p → (∀ q ∈ after, ¬ declares q) →
    ∃ q ∈ after, q.id = p.id

theorem lapsed_iff_not_holds (declares : Profile → Prop) (history : List Profile) :
    Lapsed declares history ↔ ∀ p, ¬ Holds declares history p := by
  constructor
  · rintro h p ⟨before, after, hh, hp, hafter⟩
    obtain ⟨q, hq, hid⟩ := h before p after hh hp (fun q hq => (hafter q hq).1)
    exact (hafter q hq).2 hid
  · intro h before p after hh hp hlast
    by_contra hnone
    refine h p ⟨before, after, hh, hp, fun q hq => ⟨hlast q hq, fun hid => ?_⟩⟩
    exact hnone ⟨q, hq, hid⟩

theorem exists_last {declares : Profile → Prop} {history : List Profile} {p : Profile}
    (hmem : p ∈ history) (hp : declares p) :
    ∃ before q after, history = before ++ q :: after ∧ declares q ∧ ∀ r ∈ after, ¬ declares r := by
  induction history generalizing p with
  | nil => cases hmem
  | cons x history ih =>
    by_cases hlater : ∃ y ∈ history, declares y
    · obtain ⟨y, hy, hdeclares⟩ := hlater
      obtain ⟨before, q, after, rfl, hq, hafter⟩ := ih hy hdeclares
      exact ⟨x :: before, q, after, rfl, hq, hafter⟩
    · rcases List.mem_cons.mp hmem with rfl | hmem
      · exact ⟨[], p, history, rfl, hp, fun r hr hr' => hlater ⟨r, hr, hr'⟩⟩
      · exact absurd ⟨p, hmem, hp⟩ hlater

/-- What is declared cannot lapse while every id is registered once. -/
theorem not_lapsed_of_nodup {declares : Profile → Prop} {history : List Profile} {p : Profile}
    (hids : (history.map (fun q => q.id)).Nodup) (hmem : p ∈ history) (hp : declares p) :
    ¬ Lapsed declares history := by
  intro h
  obtain ⟨before, q, after, rfl, hq, hafter⟩ := exists_last hmem hp
  obtain ⟨r, hr, hid⟩ := h before q after rfl hq hafter
  rw [List.map_append, List.map_cons] at hids
  have hfresh : q.id ∉ after.map (fun q => q.id) :=
    (List.nodup_cons.mp (List.nodup_append.mp hids).2.1).1
  exact hfresh (List.mem_map.mpr ⟨r, hr, hid⟩)

theorem Holds.mem {declares : Profile → Prop} {history : List Profile} {p : Profile}
    (h : Holds declares history p) : p ∈ history ∧ declares p := by
  obtain ⟨before, after, rfl, hp, -⟩ := h
  exact ⟨by simp, hp⟩

theorem Holds.mem_sorted {declares : Profile → Prop} {history : List Profile} {p : Profile}
    (h : Holds declares history p) : p ∈ (ofHistory history).sorted :=
  List.mem_mergeSort.mpr (((follows_ofHistory history).profiles p).mpr h.latest)

theorem mem_of_mem_sorted {history : List Profile} {p : Profile}
    (h : p ∈ (ofHistory history).sorted) : p ∈ history :=
  (((follows_ofHistory history).profiles p).mp (List.mem_mergeSort.mp h)).mem.1

/-! ## Keys that lead nowhere -/

theorem resolve?_eq_none_iff (history : List Profile) (key : String) :
    (ofHistory history).resolve? key = none ↔
      Lapsed (fun q => normalize key ∈ extensionKeys q) history ∧
      Lapsed (fun q => normalize key ∈ nameKeys q) history := by
  have hiff := (follows_ofHistory history).resolve?_iff key
  rw [lapsed_iff_not_holds, lapsed_iff_not_holds, Option.eq_none_iff_forall_ne_some]
  constructor
  · intro hnone
    have hextension : ∀ q, ¬ Holds (fun q => normalize key ∈ extensionKeys q) history q :=
      fun q hq => hnone q ((hiff q).mpr (Or.inl hq))
    exact ⟨hextension, fun q hq => hnone q ((hiff q).mpr (Or.inr ⟨hextension, hq⟩))⟩
  · rintro ⟨hextension, hname⟩ q hq
    rcases (hiff q).mp hq with hq | ⟨-, hq⟩
    · exact hextension q hq
    · exact hname q hq

/-- A key never leads to a profile that is not registered or does not declare it. -/
theorem declares_of_resolve? {history : List Profile} {key : String} {q : Profile}
    (h : (ofHistory history).resolve? key = some q) :
    q ∈ (ofHistory history).sorted ∧ normalize key ∈ declaredKeys q := by
  rcases ((follows_ofHistory history).resolve?_iff key q).mp h with hq | ⟨-, hq⟩
  · exact ⟨hq.mem_sorted, List.mem_append_left _ hq.mem.2⟩
  · exact ⟨hq.mem_sorted, List.mem_append_right _ hq.mem.2⟩

theorem additive_iff_resolves (history : List Profile) :
    Additive (ofHistory history) ↔ ∀ p ∈ (ofHistory history).sorted, ∀ key,
      normalize key ∈ declaredKeys p → (ofHistory history).resolve? key ≠ none := by
  constructor
  · intro h p hp key hkey hnone
    obtain ⟨q, -, hq, -⟩ := h p hp key hkey
    rw [hnone] at hq
    cases hq
  · intro h p hp key hkey
    obtain ⟨q, hq⟩ := Option.ne_none_iff_exists'.mp (h p hp key hkey)
    obtain ⟨hregistered, hdeclares⟩ := declares_of_resolve? hq
    exact ⟨q, hregistered, hq, hdeclares⟩

/-- **When registering is additive.**  Every key of a registered profile leads to a registered
profile that declares it if and only if no such key has lapsed both as an extension and as a name;
this is so whenever every id is registered once. -/
theorem additive_iff_no_key_lapsed (history : List Profile) :
    (Additive (ofHistory history) ↔ ∀ p ∈ (ofHistory history).sorted, ∀ key,
      normalize key ∈ declaredKeys p →
        ¬ (Lapsed (fun q => normalize key ∈ extensionKeys q) history ∧
          Lapsed (fun q => normalize key ∈ nameKeys q) history)) ∧
    ((history.map (fun q => q.id)).Nodup → Additive (ofHistory history)) := by
  have hiff := additive_iff_resolves history
  simp only [ne_eq, resolve?_eq_none_iff] at hiff
  refine ⟨hiff, fun hids => hiff.mpr fun p hp key hkey hlapsed => ?_⟩
  have hmem : p ∈ history :=
    (((follows_ofHistory history).profiles p).mp (List.mem_mergeSort.mp hp)).mem.1
  rcases List.mem_append.mp hkey with hkey | hkey
  · exact not_lapsed_of_nodup hids hmem hkey hlapsed.1
  · exact not_lapsed_of_nodup hids hmem hkey hlapsed.2

/-! ## A history that loses a key -/

theorem resolve?_of_taken_over {p q r : Profile} {key : String}
    (hq : normalize key ∈ extensionKeys q) (hid : r.id = q.id)
    (hr : normalize key ∉ extensionKeys r) (hnames : ∀ x ∈ [p, q, r], normalize key ∉ nameKeys x) :
    (ofHistory [p, q, r]).resolve? key = none := by
  rw [resolve?_eq_none_iff, lapsed_iff_not_holds, lapsed_iff_not_holds]
  refine ⟨fun x hx => ?_, fun x hx => hnames x hx.mem.1 hx.mem.2⟩
  rcases (holds_snoc _ [p, q] r x).mp hx with ⟨hdeclares, -⟩ | ⟨-, hne, hx⟩
  · exact hr hdeclares
  · rcases (holds_snoc _ [p] q x).mp hx with ⟨-, rfl⟩ | ⟨hnot, -, -⟩
    · exact hne hid
    · exact hnot hq

end Registry

theorem Profile.keys_of_ofDefinition {d : Definition} {p : Profile} (h : ofDefinition d = .ok p) :
    p.id = d.id ∧ p.aliases = d.aliases ∧ p.extensions = d.extensions := by
  have hloaded := loadedFrom_of_ofDefinition h
  exact ⟨hloaded.id, hloaded.aliases, hloaded.extensions⟩

/-- A definition with no patterns in its queries. -/
def Definition.withoutPatterns (d : Definition) : Definition :=
  { d with queries := QueryName.all.map fun n => (n, "; language: " ++ d.id ++ "\n; version: 1\n") }

namespace Registry

/-- Python declares `pyi`; Go takes it over and is then registered again without it.  Python is
still registered, and its key leads nowhere. -/
theorem taken_key_is_lost : ∃ python taking go,
    Profile.ofDefinition Definition.python.withoutPatterns = .ok python ∧
    Profile.ofDefinition { Definition.go.withoutPatterns with extensions := ["go", "pyi"] } =
      .ok taking ∧
    Profile.ofDefinition Definition.go.withoutPatterns = .ok go ∧
    python ∈ (ofHistory [python, taking, go]).sorted ∧ "pyi" ∈ python.extensions ∧
    (ofHistory [python, taking, go]).resolve? "pyi" = none ∧
    ¬ Additive (ofHistory [python, taking, go]) := by
  have hbuilds : ∀ d, (Profile.ofDefinition d).toOption.isSome = true →
      ∃ p, Profile.ofDefinition d = .ok p := by
    intro d h
    cases hd : Profile.ofDefinition d with
    | error e =>
      rw [hd] at h
      cases h
    | ok p => exact ⟨p, rfl⟩
  obtain ⟨python, hpython⟩ := hbuilds Definition.python.withoutPatterns (by cbv)
  obtain ⟨taking, htaking⟩ :=
    hbuilds { Definition.go.withoutPatterns with extensions := ["go", "pyi"] } (by cbv)
  obtain ⟨go, hgo⟩ := hbuilds Definition.go.withoutPatterns (by cbv)
  obtain ⟨hid, haliases, hextensions⟩ := Profile.keys_of_ofDefinition hpython
  obtain ⟨hid₁, haliases₁, hextensions₁⟩ := Profile.keys_of_ofDefinition htaking
  obtain ⟨hid₂, haliases₂, hextensions₂⟩ := Profile.keys_of_ofDefinition hgo
  have hkey : "pyi" ∈ python.extensions := by
    rw [hextensions]
    decide
  have hmem : python ∈ (ofHistory [python, taking, go]).sorted := by
    have hne₁ : taking.id ≠ python.id := by
      rw [hid, hid₁]
      decide
    have hne₂ : go.id ≠ python.id := by
      rw [hid, hid₂]
      decide
    refine List.mem_mergeSort.mpr (((follows_ofHistory _).profiles python).mpr
      ⟨[], [taking, go], rfl, rfl, ?_⟩)
    rw [List.forall_mem_cons, List.forall_mem_singleton]
    exact ⟨⟨hne₁, hne₁⟩, hne₂, hne₂⟩
  have hnone : (ofHistory [python, taking, go]).resolve? "pyi" = none := by
    refine resolve?_of_taken_over ?_ (hid₂.trans hid₁.symm) ?_ ?_
    · rw [extensionKeys, hextensions₁]
      decide
    · rw [extensionKeys, hextensions₂]
      decide
    · rw [List.forall_mem_cons, List.forall_mem_cons, List.forall_mem_singleton, nameKeys, nameKeys,
        nameKeys, hid, hid₁, hid₂, haliases, haliases₁, haliases₂]
      decide
  refine ⟨python, taking, go, hpython, htaking, hgo, hmem, hkey, hnone, fun h => ?_⟩
  have hdeclares : normalize "pyi" ∈ declaredKeys python :=
    List.mem_append_left _ (List.mem_map_of_mem hkey)
  exact (additive_iff_resolves _).mp h python hmem "pyi" hdeclares hnone

end Registry

end CodeAtlas
