import CodeAtlas.Config.Basic

/-!
Consistent options.  Options are accepted if and only if they are consistent: whoever asks for an
upload says where to, every glob can be read, and the globs can be compiled together.  A missing place
is found first, then the first glob that cannot be read (`validate_cases`).
-/

namespace CodeAtlas

variable [Glob.Engine]

namespace Glob

theorem readAll_cases (texts : List String) :
    (∃ patterns, readAll texts = .ok patterns ∧ ∀ t ∈ texts, ∃ p, Engine.read t = .ok p) ∨
      ∃ before text after reason, texts = before ++ text :: after ∧
        (∀ t ∈ before, ∃ p, Engine.read t = .ok p) ∧ Engine.read text = .error reason ∧
        readAll texts = .error (text, reason) := by
  induction texts with
  | nil => exact .inl ⟨[], rfl, by simp⟩
  | cons t texts ih =>
    cases hread : Engine.read t with
    | error reason => exact .inr ⟨[], t, texts, reason, rfl, by simp, hread, by rw [readAll, hread]⟩
    | ok p =>
      have hcons : readAll (t :: texts) = (readAll texts).map (p :: ·) := by rw [readAll, hread]
      rw [hcons]
      obtain ⟨patterns, hall, hevery⟩ | ⟨before, text, after, reason, rfl, hbefore, hfault, hall⟩ := ih
      · refine .inl ⟨p :: patterns, by rw [hall]; rfl, ?_⟩
        exact List.forall_mem_cons.mpr ⟨⟨p, hread⟩, hevery⟩
      · refine .inr ⟨t :: before, text, after, reason, rfl, ?_, hfault, by rw [hall]; rfl⟩
        exact List.forall_mem_cons.mpr ⟨⟨p, hread⟩, hbefore⟩

end Glob

namespace Config

/-- There is a place to upload to, if uploading is asked for. -/
def HasDestination (c : Config) : Prop :=
  c.upload = true → ∃ url, c.uploadUrl = some url ∧ Text.allBlank url = false

/-- Options that can be used. -/
structure Consistent (c : Config) : Prop where
  destination : c.HasDestination
  readable : ∀ glob ∈ c.ignoreGlobs, ∃ p, Glob.Engine.read glob = .ok p
  /-- The globs are not too much together. -/
  bearable : ∀ patterns, Glob.readAll c.ignoreGlobs = .ok patterns →
    ∃ set, Glob.Engine.build patterns = .ok set

omit [Glob.Engine] in
theorem hasDestination_iff (c : Config) :
    c.HasDestination ↔ (c.upload && !c.hasUploadUrl) = false := by
  unfold HasDestination hasUploadUrl
  cases c.upload with
  | false => simp
  | true => cases c.uploadUrl <;> simp

inductive Checked (c : Config) : Except ConfigFault Glob.PatternSet → Prop where
  | accepted {set : Glob.PatternSet} (hc : c.Consistent)
      (hset : Glob.PatternSet.compile c.ignoreGlobs = .ok set) : Checked c (.ok set)
  | nowhere (h : ¬ c.HasDestination) : Checked c (.error .missingUploadUrl)
  /-- A glob cannot be read, and every glob before it can. -/
  | unreadable {before after : List String} {glob reason : String} (hplace : c.HasDestination)
      (hglobs : c.ignoreGlobs = before ++ glob :: after)
      (hbefore : ∀ g ∈ before, ∃ p, Glob.Engine.read g = .ok p)
      (hglob : Glob.Engine.read glob = .error reason) : Checked c (.error (.invalidGlob glob reason))
  /-- Every glob can be read, and together they are too much. -/
  | unbearable {patterns : List Glob.Engine.Pattern} {reason : String} (hplace : c.HasDestination)
      (hall : Glob.readAll c.ignoreGlobs = .ok patterns)
      (hbuild : Glob.Engine.build patterns = .error reason) :
      Checked c (.error (.invalidGlob (Text.join ", " c.ignoreGlobs) reason))

theorem validate_cases (c : Config) : c.Checked c.validate := by
  by_cases hplace : c.HasDestination
  · have hvalidate : c.validate = c.ignoreSet := by
      rw [validate, (hasDestination_iff c).mp hplace]
      rfl
    rw [hvalidate, ignoreSet]
    obtain ⟨patterns, hall, hevery⟩ | ⟨before, glob, after, reason, hglobs, hbefore, hfault, hall⟩ :=
      Glob.readAll_cases c.ignoreGlobs
    · have hcompile : Glob.PatternSet.compile c.ignoreGlobs = (Glob.Engine.build patterns).mapError
          fun reason => (Text.join ", " c.ignoreGlobs, reason) := by
        rw [Glob.PatternSet.compile, hall]
      cases hbuild : Glob.Engine.build patterns with
      | ok set =>
        rw [hbuild] at hcompile
        rw [hcompile]
        refine .accepted ⟨hplace, hevery, fun patterns' hall' => ?_⟩ hcompile
        obtain rfl : patterns = patterns' := Except.ok.inj (hall.symm.trans hall')
        exact ⟨set, hbuild⟩
      | error reason =>
        rw [hcompile, hbuild]
        exact .unbearable hplace hall hbuild
    · rw [Glob.PatternSet.compile, hall]
      exact .unreadable hplace hglobs hbefore hfault
  · have hvalidate : c.validate = .error .missingUploadUrl := by
      rw [validate, if_pos]
      rwa [hasDestination_iff, Bool.not_eq_false] at hplace
    rw [hvalidate]
    exact .nowhere hplace

theorem consistent_iff (c : Config) : c.Consistent ↔ ∃ set, c.validate = .ok set := by
  have hchecked := validate_cases c
  generalize c.validate = checked at hchecked
  cases hchecked with
  | accepted hc _ => exact iff_of_true hc ⟨_, rfl⟩
  | nowhere hplace => exact iff_of_false (fun h => hplace h.destination) (by simp)
  | @unreadable _ _ glob _ _ hglobs _ hfault =>
    refine iff_of_false (fun h => ?_) (by simp)
    obtain ⟨p, hp⟩ := h.readable glob (by simp [hglobs])
    rw [hfault] at hp
    cases hp
  | unbearable _ hall hbuild =>
    refine iff_of_false (fun h => ?_) (by simp)
    obtain ⟨set, hset⟩ := h.bearable _ hall
    rw [hbuild] at hset
    cases hset

/-- The compiled globs of options that are accepted. -/
theorem compile_of_validate {c : Config} {set : Glob.PatternSet} (h : c.validate = .ok set) :
    Glob.PatternSet.compile c.ignoreGlobs = .ok set := by
  have hchecked := validate_cases c
  rw [h] at hchecked
  cases hchecked with
  | accepted _ hset => exact hset

end Config

end CodeAtlas
