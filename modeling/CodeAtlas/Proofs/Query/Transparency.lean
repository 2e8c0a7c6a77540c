import CodeAtlas.Proofs.Query.Sharing

/-!
What a request gets does not show what the cache went through.  A cache is `Reachable` if some
schedule of requests leads to it from a new cache; a `get` leads from one such cache to another
(`Reachable.get`), and its answer is what compiling the text on the spot gives
(`Reachable.answer`).
-/

namespace CodeAtlas

variable [QueryEngine]

namespace QueryCache

/-- Some schedule of requests on a new cache leads to this cache. -/
def Reachable (c : QueryCache) : Prop :=
  ∃ events : List Event, (Traffic.start.run events).cache = c

theorem reachable_empty : Reachable empty := ⟨[], rfl⟩

theorem Traffic.run_append (t : Traffic) (earlier later : List Event) :
    t.run (earlier ++ later) = (t.run earlier).run later :=
  List.foldl_append

theorem Reachable.get {c : QueryCache} (h : c.Reachable) (key : QueryKey) :
    (c.get key).2.Reachable := by
  obtain ⟨events, rfl⟩ := h
  refine ⟨events ++ [.ask key, .step (Traffic.start.run events).requests.length,
    .step (Traffic.start.run events).requests.length,
    .step (Traffic.start.run events).requests.length], ?_⟩
  rw [Traffic.run_append, Traffic.run_get]

theorem Traffic.Sound.answer {t : Traffic} (h : t.Sound) {i : Nat} {key : QueryKey}
    {answer : Except Failure Compiled}
    (hi : t.requests[i]? = some ⟨key, .answered answer⟩) :
    answer.map (fun q => q.query) = compile key := by
  have hfits := h.fits hi
  cases answer with
  | ok q => exact (h.stocked.made _ hfits).1.symm
  | error f => exact hfits.symm

theorem Reachable.answer {c : QueryCache} (h : c.Reachable) (key : QueryKey) :
    (c.get key).1.map (fun q => q.query) = compile key := by
  obtain ⟨events, rfl⟩ := h
  have hsound := (Traffic.sound_run_start events).run
    [.ask key, .step (Traffic.start.run events).requests.length,
      .step (Traffic.start.run events).requests.length,
      .step (Traffic.start.run events).requests.length]
  rw [Traffic.run_get] at hsound
  exact hsound.answer (i := (Traffic.start.run events).requests.length) (by simp)

end QueryCache

end CodeAtlas
