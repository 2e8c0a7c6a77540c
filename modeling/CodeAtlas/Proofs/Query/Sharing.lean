import CodeAtlas.Query.Cache
import CodeAtlas.Proofs.Keyed

/-!
Requests that overlap.  A request looks its key up under the lock; if nothing is stored it compiles
the text without the lock, and then, under the lock again, stores what it compiled unless the key
has got an entry meanwhile.  Between two of these steps any number of other requests take theirs.
`Traffic` is a cache with all requests ever made of it, and a list of `Event`s is a schedule: any
interleaving of the steps of any number of requests.

The invariant is `Sound`.  A request that has compiled holds an object nobody else has, and a
request that has an object as its answer has one that is stored; so whoever comes second to store a
key gives its own object up.  `one_object_per_key` is the result for every schedule, and `get` is
the schedule in which nothing comes between (`run_get`).
-/

namespace CodeAtlas

variable [QueryEngine]

namespace QueryCache

/-! ## Requests, step by step -/

/-- How far a request came. -/
inductive Phase where
  | begun
  /-- The cache had nothing under the key. -/
  | missed
  /-- The text is compiled and not yet offered to the cache. -/
  | compiled (q : Compiled)
  | answered (answer : Except Failure Compiled)

structure Request where
  key : QueryKey
  phase : Phase

/-- The next step of a request.  Looking up and storing hold the lock; compiling makes a new object,
which has the number of objects made before as its serial. -/
def Request.advance (r : Request) (c : QueryCache) : Request × QueryCache :=
  match r.phase with
  | .begun =>
    match c.lookup? r.key with
    | some q => (⟨r.key, .answered (.ok q)⟩, { c with hits := c.hits + 1 })
    | none => (⟨r.key, .missed⟩, { c with misses := c.misses + 1 })
  | .missed =>
    match compile r.key with
    | .error f => (⟨r.key, .answered (.error f)⟩, c)
    | .ok q => (⟨r.key, .compiled ⟨c.compiles, q⟩⟩, { c with compiles := c.compiles + 1 })
  | .compiled q => (⟨r.key, .answered (.ok (c.insert r.key q).1)⟩, (c.insert r.key q).2)
  | .answered _ => (r, c)

/-- Everything that a step can do. -/
inductive Move (c : QueryCache) : Request → Request × QueryCache → Prop where
  | hit {key : QueryKey} {q : Compiled} (h : c.lookup? key = some q) :
      Move c ⟨key, .begun⟩ (⟨key, .answered (.ok q)⟩, { c with hits := c.hits + 1 })
  | miss {key : QueryKey} (h : c.lookup? key = none) :
      Move c ⟨key, .begun⟩ (⟨key, .missed⟩, { c with misses := c.misses + 1 })
  | refused {key : QueryKey} {f : Failure} (h : compile key = .error f) :
      Move c ⟨key, .missed⟩ (⟨key, .answered (.error f)⟩, c)
  | made {key : QueryKey} {q : Query} (h : compile key = .ok q) :
      Move c ⟨key, .missed⟩
        (⟨key, .compiled ⟨c.compiles, q⟩⟩, { c with compiles := c.compiles + 1 })
  /-- Another request stored the key first. -/
  | late {key : QueryKey} {q stored : Compiled} (h : c.lookup? key = some stored) :
      Move c ⟨key, .compiled q⟩ (⟨key, .answered (.ok stored)⟩, c)
  | stored {key : QueryKey} {q : Compiled} (h : c.lookup? key = none) :
      Move c ⟨key, .compiled q⟩
        (⟨key, .answered (.ok q)⟩, { c with entries := c.entries ++ [(key, q)] })
  | answered {key : QueryKey} {answer : Except Failure Compiled} :
      Move c ⟨key, .answered answer⟩ (⟨key, .answered answer⟩, c)

theorem move_advance (r : Request) (c : QueryCache) : Move c r (r.advance c) := by
  obtain ⟨key, phase⟩ := r
  cases phase with
  | begun =>
    cases h : c.lookup? key with
    | some q => simpa [Request.advance, h] using Move.hit h
    | none => simpa [Request.advance, h] using Move.miss h
  | missed =>
    cases h : compile key with
    | error f => simpa [Request.advance, h] using Move.refused (c := c) h
    | ok q => simpa [Request.advance, h] using Move.made (c := c) h
  | compiled q =>
    cases h : c.lookup? key with
    | some stored => simpa [Request.advance, insert, h] using Move.late (q := q) h
    | none => simpa [Request.advance, insert, h] using Move.stored (q := q) h
  | answered answer => exact Move.answered

/-- A cache with all requests ever made of it, in the order in which they came. -/
structure Traffic where
  cache : QueryCache
  requests : List Request

/-- What can happen next. -/
inductive Event where
  | ask (key : QueryKey)
  /-- The request with the number takes its next step. -/
  | step (number : Nat)
deriving DecidableEq

namespace Traffic

def start : Traffic := ⟨.empty, []⟩

def next (t : Traffic) : Event → Traffic
  | .ask key => { t with requests := t.requests ++ [⟨key, .begun⟩] }
  | .step i =>
    match t.requests[i]? with
    | some r => ⟨(r.advance t.cache).2, t.requests.set i (r.advance t.cache).1⟩
    | none => t

def run (t : Traffic) (events : List Event) : Traffic :=
  events.foldl next t

theorem next_step {t : Traffic} {i : Nat} {r : Request} (h : t.requests[i]? = some r) :
    t.next (.step i) = ⟨(r.advance t.cache).2, t.requests.set i (r.advance t.cache).1⟩ := by
  simp only [next, h]

theorem next_step_none {t : Traffic} {i : Nat} (h : t.requests[i]? = none) :
    t.next (.step i) = t := by
  simp only [next, h]

end Traffic

/-! ## The invariant -/

/-- Every key is stored once, every object is stored once, and an entry is the compilation of its
key. -/
structure Stocked (c : QueryCache) : Prop where
  keys : (c.entries.map (fun e => e.1)).Nodup
  serials : (c.entries.map (fun e => e.2.serial)).Nodup
  made : ∀ e ∈ c.entries, compile e.1 = .ok e.2.query ∧ e.2.serial < c.compiles

theorem Stocked.lookup?_iff {c : QueryCache} (h : Stocked c) (key : QueryKey) (q : Compiled) :
    c.lookup? key = some q ↔ (key, q) ∈ c.entries := by
  unfold lookup?
  rw [Option.map_eq_some_iff]
  constructor
  · rintro ⟨e, he, rfl⟩
    obtain ⟨hmem, rfl⟩ := (find?_key_iff _ h.keys key e).mp he
    exact hmem
  · intro hmem
    exact ⟨(key, q), (find?_key_iff _ h.keys key (key, q)).mpr ⟨hmem, rfl⟩, rfl⟩

theorem stocked_empty : Stocked empty :=
  ⟨List.nodup_nil, List.nodup_nil, fun _ he => absurd he List.not_mem_nil⟩

theorem Stocked.store {c : QueryCache} (h : Stocked c) {key : QueryKey} {q : Compiled}
    (hkey : c.lookup? key = none) (hmade : compile key = .ok q.query)
    (hserial : q.serial < c.compiles) (hnew : ∀ e ∈ c.entries, e.2.serial ≠ q.serial) :
    Stocked { c with entries := c.entries ++ [(key, q)] } := by
  refine ⟨nodup_keys_append _ h.keys fun e he heq => ?_, nodup_keys_append _ h.serials hnew,
    fun e he => ?_⟩
  · obtain ⟨k, stored⟩ := e
    cases (show k = key from heq)
    rw [(h.lookup?_iff key stored).mpr he] at hkey
    cases hkey
  · rcases List.mem_append.mp he with he | he
    · exact h.made e he
    · rw [List.mem_singleton.mp he]
      exact ⟨hmade, hserial⟩

/-- What a request has got is right: an object of its own that is stored nowhere, an answer that is
stored, or the failure of its key. -/
def Request.Fits (c : QueryCache) (r : Request) : Prop :=
  match r.phase with
  | .begun => True
  | .missed => True
  | .compiled q => compile r.key = .ok q.query ∧ q.serial < c.compiles ∧
      ∀ e ∈ c.entries, e.2.serial ≠ q.serial
  | .answered (.ok q) => (r.key, q) ∈ c.entries
  | .answered (.error f) => compile r.key = .error f

theorem Request.Fits.of_entries_eq {c c' : QueryCache} {r : Request} (h : r.Fits c)
    (hentries : c'.entries = c.entries) (hcompiles : c.compiles ≤ c'.compiles) : r.Fits c' := by
  obtain ⟨key, phase⟩ := r
  cases phase with
  | begun => trivial
  | missed => trivial
  | compiled q =>
    obtain ⟨hmade, hserial, hnew⟩ := h
    exact ⟨hmade, by omega, by rwa [hentries]⟩
  | answered answer =>
    cases answer with
    | ok q =>
      show (key, q) ∈ c'.entries
      rw [hentries]
      exact h
    | error f => exact h

theorem Request.Fits.store {c : QueryCache} {r : Request} (h : r.Fits c) {key : QueryKey}
    {q : Compiled} (hother : ∀ q', r.phase = .compiled q' → q.serial ≠ q'.serial) :
    r.Fits { c with entries := c.entries ++ [(key, q)] } := by
  obtain ⟨own, phase⟩ := r
  cases phase with
  | begun => trivial
  | missed => trivial
  | compiled q' =>
    obtain ⟨hmade, hserial, hnew⟩ := h
    refine ⟨hmade, hserial, fun e he => ?_⟩
    rcases List.mem_append.mp he with he | he
    · exact hnew e he
    · rw [List.mem_singleton.mp he]
      exact hother q' rfl
  | answered answer =>
    cases answer with
    | ok q' => exact List.mem_append_left _ h
    | error f => exact h

namespace Traffic

/-- The invariant of a cache under requests. -/
structure Sound (t : Traffic) : Prop where
  stocked : Stocked t.cache
  fits : ∀ {i : Nat} {r : Request}, t.requests[i]? = some r → r.Fits t.cache
  /-- No two requests have compiled the same object. -/
  apart : ∀ {i j : Nat} {r s : Request} {p q : Compiled}, t.requests[i]? = some r →
    t.requests[j]? = some s → r.phase = .compiled p → s.phase = .compiled q →
    p.serial = q.serial → i = j

theorem sound_start : Sound start where
  stocked := stocked_empty
  fits := by
    intro i r h
    cases h
  apart := by
    intro i j r s p q h
    cases h

theorem Sound.ask {t : Traffic} (h : t.Sound) (key : QueryKey) : (t.next (.ask key)).Sound := by
  have hsplit : ∀ {i : Nat} {r : Request}, (t.requests ++ [⟨key, .begun⟩])[i]? = some r →
      t.requests[i]? = some r ∨ r = ⟨key, .begun⟩ := by
    intro i r hi
    rw [List.getElem?_append] at hi
    split at hi
    · exact Or.inl hi
    · exact Or.inr (List.mem_singleton.mp (List.mem_of_getElem? hi))
  refine ⟨h.stocked, fun hi => ?_, fun hi hj hp hq => ?_⟩
  · rcases hsplit hi with hold | rfl
    · exact h.fits hold
    · trivial
  · rcases hsplit hi with holdi | rfl
    · rcases hsplit hj with holdj | rfl
      · exact h.apart holdi holdj hp hq
      · cases hq
    · cases hp

/-- A step keeps the invariant if the cache stays in order, the request fits what it has got, the
others still fit, and an object it has made is nobody else's. -/
theorem Sound.replace {t : Traffic} (h : t.Sound) {i : Nat} {r : Request} {c : QueryCache}
    (hstocked : Stocked c) (hfits : r.Fits c)
    (hothers : ∀ {j : Nat} {s : Request}, j ≠ i → t.requests[j]? = some s → s.Fits c)
    (hown : ∀ {p : Compiled}, r.phase = .compiled p → ∀ {j : Nat} {s : Request} {q : Compiled},
      j ≠ i → t.requests[j]? = some s → s.phase = .compiled q → p.serial ≠ q.serial) :
    Sound ⟨c, t.requests.set i r⟩ := by
  have hsplit : ∀ {j : Nat} {s : Request}, (t.requests.set i r)[j]? = some s →
      (j = i ∧ s = r) ∨ (j ≠ i ∧ t.requests[j]? = some s) := by
    intro j s hj
    rw [List.getElem?_set] at hj
    split at hj
    · rename_i heq
      split at hj
      · exact Or.inl ⟨heq.symm, (Option.some.inj hj).symm⟩
      · cases hj
    · rename_i hne
      exact Or.inr ⟨fun heq => hne heq.symm, hj⟩
  refine ⟨hstocked, fun hj => ?_, fun hj hk hp hq hserial => ?_⟩
  · rcases hsplit hj with ⟨-, rfl⟩ | ⟨hne, hold⟩
    · exact hfits
    · exact hothers hne hold
  · rcases hsplit hj with ⟨hji, hs⟩ | ⟨hji, holdj⟩
    · rcases hsplit hk with ⟨hki, -⟩ | ⟨hki, holdk⟩
      · rw [hji, hki]
      · rw [hs] at hp
        exact absurd hserial (hown hp hki holdk hq)
    · rcases hsplit hk with ⟨hki, hs⟩ | ⟨hki, holdk⟩
      · rw [hs] at hq
        exact absurd hserial.symm (hown hq hji holdj hp)
      · exact h.apart holdj holdk hp hq hserial

theorem Sound.step {t : Traffic} (h : t.Sound) (i : Nat) : (t.next (.step i)).Sound := by
  cases hi : t.requests[i]? with
  | none => rwa [next_step_none hi]
  | some r =>
    rw [next_step hi]
    have hfits := h.fits hi
    have hstep := move_advance r t.cache
    generalize r.advance t.cache = after at hstep
    -- only `made` and `stored` touch what the invariant speaks of
    cases hstep with
    | hit hfound =>
      exact h.replace ⟨h.stocked.keys, h.stocked.serials, h.stocked.made⟩
        ((h.stocked.lookup?_iff _ _).mp hfound)
        (fun _ hj => (h.fits hj).of_entries_eq rfl le_rfl) nofun
    | miss hnone =>
      exact h.replace ⟨h.stocked.keys, h.stocked.serials, h.stocked.made⟩ trivial
        (fun _ hj => (h.fits hj).of_entries_eq rfl le_rfl) nofun
    | refused hrefused => exact h.replace h.stocked hrefused (fun _ hj => h.fits hj) nofun
    | made hmade =>
      refine h.replace ⟨h.stocked.keys, h.stocked.serials, fun e he => ?_⟩
        ⟨hmade, Nat.lt_succ_self _, fun e he => ?_⟩
        (fun _ hj => (h.fits hj).of_entries_eq rfl (Nat.le_succ _)) ?_
      · obtain ⟨hcompile, hserial⟩ := h.stocked.made e he
        exact ⟨hcompile, Nat.lt_succ_of_lt hserial⟩
      · exact Nat.ne_of_lt (h.stocked.made e he).2
      · intro p hp j s q _ hj hq
        cases hp
        have hother := h.fits hj
        simp only [Request.Fits, hq] at hother
        exact Nat.ne_of_gt hother.2.1
    | late hfound =>
      exact h.replace h.stocked ((h.stocked.lookup?_iff _ _).mp hfound)
        (fun _ hj => h.fits hj) nofun
    | stored hnone =>
      obtain ⟨hmade, hserial, hnew⟩ := hfits
      refine h.replace (h.stocked.store hnone hmade hserial hnew)
        (List.mem_append_right _ (List.mem_singleton_self _)) (fun hne hj => ?_) nofun
      refine (h.fits hj).store fun q' hq' heq => ?_
      exact hne (h.apart hi hj rfl hq' heq).symm
    | answered => exact h.replace h.stocked hfits (fun _ hj => h.fits hj) nofun

theorem Sound.next {t : Traffic} (h : t.Sound) (e : Event) : (t.next e).Sound := by
  cases e with
  | ask key => exact h.ask key
  | step i => exact h.step i

theorem Sound.run {t : Traffic} (h : t.Sound) (events : List Event) : (t.run events).Sound := by
  induction events generalizing t with
  | nil => exact h
  | cons e events ih => exact ih (h.next e)

theorem sound_run_start (events : List Event) : (start.run events).Sound :=
  sound_start.run events

/-! ## What stays -/

theorem run_cons (t : Traffic) (e : Event) (events : List Event) :
    t.run (e :: events) = (t.next e).run events := rfl

theorem lookup?_next {t : Traffic} {key : QueryKey} {q : Compiled} (e : Event)
    (h : t.cache.lookup? key = some q) : (t.next e).cache.lookup? key = some q := by
  cases e with
  | ask key' => exact h
  | step i =>
    cases hi : t.requests[i]? with
    | none => rwa [next_step_none hi]
    | some r =>
      rw [next_step hi]
      have hstep := move_advance r t.cache
      generalize r.advance t.cache = after at hstep
      cases hstep with
      | stored =>
        obtain ⟨entry, hentry, rfl⟩ := Option.map_eq_some_iff.mp h
        show Option.map _ (List.find? _ (t.cache.entries ++ _)) = _
        rw [List.find?_append, hentry]
        rfl
      | _ => exact h

/-- A stored entry is never replaced or removed. -/
theorem lookup?_run {t : Traffic} {key : QueryKey} {q : Compiled} (events : List Event)
    (h : t.cache.lookup? key = some q) : (t.run events).cache.lookup? key = some q := by
  induction events generalizing t with
  | nil => exact h
  | cons e events ih => exact ih (lookup?_next e h)

theorem request_next {t : Traffic} {i : Nat} {r : Request} (h : t.requests[i]? = some r)
    (e : Event) : (t.next e).requests[i]? =
      some (if e = .step i then (r.advance t.cache).1 else r) := by
  have hlt : i < t.requests.length := (List.getElem?_eq_some_iff.mp h).1
  cases e with
  | ask key =>
    show (t.requests ++ _)[i]? = _
    rw [List.getElem?_append_left hlt, h, if_neg (by simp)]
  | step j =>
    by_cases hji : j = i
    · subst hji
      rw [next_step h, if_pos rfl]
      exact List.getElem?_set_self hlt
    · rw [if_neg (fun heq => hji (Event.step.inj heq))]
      cases hj : t.requests[j]? with
      | none => rwa [next_step_none hj]
      | some s =>
        rw [next_step hj]
        show (t.requests.set j _)[i]? = _
        rw [List.getElem?_set_ne hji, h]

/-- The steps that a request has still to take, at most. -/
def left : Phase → Nat
  | .begun => 3
  | .missed => 2
  | .compiled _ => 1
  | .answered _ => 0

theorem left_advance (r : Request) (c : QueryCache) :
    (r.advance c).1.key = r.key ∧ left (r.advance c).1.phase ≤ left r.phase - 1 := by
  have hstep := move_advance r c
  generalize r.advance c = after at hstep
  cases hstep <;> exact ⟨rfl, by simp [left]⟩

theorem left_run {t : Traffic} {i : Nat} {r : Request} (h : t.requests[i]? = some r)
    (events : List Event) : ∃ s, (t.run events).requests[i]? = some s ∧ s.key = r.key ∧
      left s.phase ≤ left r.phase - events.count (.step i) := by
  induction events generalizing t r with
  | nil => exact ⟨r, h, rfl, by simp⟩
  | cons e events ih =>
    obtain ⟨s, hs, hkey, hleft⟩ := ih (request_next h e)
    refine ⟨s, hs, ?_, ?_⟩
    · rw [hkey]
      split
      · exact (left_advance r t.cache).1
      · rfl
    · rw [List.count_cons]
      split at hleft
      · have hstep := (left_advance r t.cache).2
        simp only [*, beq_self_eq_true, if_true]
        omega
      · simp only [*, beq_iff_eq, if_false]
        omega

/-- Whatever the others do, three steps of its own give a request its answer. -/
theorem answered_run {t : Traffic} {i : Nat} {r : Request} (h : t.requests[i]? = some r)
    {events : List Event} (hsteps : 3 ≤ events.count (.step i)) :
    ∃ answer, (t.run events).requests[i]? = some ⟨r.key, .answered answer⟩ := by
  obtain ⟨⟨key, phase⟩, hs, rfl, hleft⟩ := left_run h events
  have hthree : left r.phase ≤ 3 := by
    cases r.phase <;> simp [left]
  have hnone : left phase = 0 := by
    dsimp only at hleft
    omega
  cases phase with
  | answered answer => exact ⟨answer, hs⟩
  | _ => cases hnone

theorem answer_run {t : Traffic} {i : Nat} {key : QueryKey} {answer : Except Failure Compiled}
    (h : t.requests[i]? = some ⟨key, .answered answer⟩) (events : List Event) :
    (t.run events).requests[i]? = some ⟨key, .answered answer⟩ := by
  induction events generalizing t with
  | nil => exact h
  | cons e events ih =>
    refine ih ?_
    rw [request_next h e]
    split <;> rfl

/-! ## One object for each key -/

theorem next_last (c : QueryCache) (requests : List Request) (r : Request) :
    next ⟨c, requests ++ [r]⟩ (.step requests.length) =
      ⟨(r.advance c).2, requests ++ [(r.advance c).1]⟩ := by
  have hlast : (requests ++ [r])[requests.length]? = some r := by simp
  rw [next_step hlast]
  simp

theorem run_get (t : Traffic) (key : QueryKey) :
    t.run [.ask key, .step t.requests.length, .step t.requests.length, .step t.requests.length] =
      ⟨(t.cache.get key).2, t.requests ++ [⟨key, .answered (t.cache.get key).1⟩]⟩ := by
  have hask : t.next (.ask key) = ⟨t.cache, t.requests ++ [⟨key, .begun⟩]⟩ := rfl
  rw [run_cons, run_cons, run_cons, run_cons, hask, next_last, next_last, next_last]
  show Traffic.mk _ _ = _
  unfold get
  cases hlookup : t.cache.lookup? key with
  | some q => simp only [Request.advance, hlookup]
  | none =>
    cases hcompile : compile key with
    | error f => simp only [Request.advance, hlookup, hcompile]
    | ok q => simp only [Request.advance, hlookup, hcompile]

/-- **One object for each key, under every schedule.**  Let any number of requests take their steps
in any order on a new cache.  At any moment two requests that were answered with an object have the
same object if and only if they asked for the same key; an answer is what compiling the text for the
request's own grammar gives, be it a query or a failure; and a text that does not compile leaves its
key without an entry and the cache as it is.  Whatever happens next, what is stored stays as it is,
an answer is final, and three steps of its own give a request its answer.  A `get` is a request that
nothing comes between. -/
theorem one_object_per_key (events later : List Event) :
    (∀ (i j : Nat) (key key' : QueryKey) (p q : Compiled),
      (start.run events).requests[i]? = some ⟨key, .answered (.ok p)⟩ →
      (start.run events).requests[j]? = some ⟨key', .answered (.ok q)⟩ →
      (key = key' → p = q) ∧ (key ≠ key' → p.serial ≠ q.serial)) ∧
    (∀ (i : Nat) (key : QueryKey) (answer : Except Failure Compiled),
      (start.run events).requests[i]? = some ⟨key, .answered answer⟩ →
      answer.map (fun q => q.query) =
        (Query.compile key.grammar.handle key.pattern).mapError
          (fun reason => .query key.grammar.id key.pattern reason)) ∧
    (∀ (key : QueryKey) (f : Failure), compile key = .error f →
      (start.run events).cache.lookup? key = none ∧
      ∀ i, (start.run events).requests[i]? = some ⟨key, .missed⟩ →
        ((start.run events).next (.step i)).cache = (start.run events).cache) ∧
    (∀ (key : QueryKey) (q : Compiled), (start.run events).cache.lookup? key = some q →
      ((start.run events).run later).cache.lookup? key = some q) ∧
    (∀ (i : Nat) (key : QueryKey) (answer : Except Failure Compiled),
      (start.run events).requests[i]? = some ⟨key, .answered answer⟩ →
      ((start.run events).run later).requests[i]? = some ⟨key, .answered answer⟩) ∧
    (∀ (i : Nat) (r : Request), (start.run events).requests[i]? = some r →
      3 ≤ later.count (.step i) →
      ∃ answer, ((start.run events).run later).requests[i]? = some ⟨r.key, .answered answer⟩) ∧
    (∀ key : QueryKey, (start.run events).run (.ask key ::
        List.replicate 3 (.step (start.run events).requests.length)) =
      ⟨((start.run events).cache.get key).2, (start.run events).requests ++
        [⟨key, .answered ((start.run events).cache.get key).1⟩]⟩) := by
  have h := sound_run_start events
  generalize start.run events = t at h
  refine ⟨fun i j key key' p q hp hq => ?_, fun i key answer hi => ?_, fun key f hf => ?_,
    fun key q => lookup?_run later, fun i key answer hi => answer_run hi later,
    fun i r hi hsteps => answered_run hi hsteps, run_get t⟩
  · have hp : (key, p) ∈ t.cache.entries := h.fits hp
    have hq : (key', q) ∈ t.cache.entries := h.fits hq
    constructor
    · rintro rfl
      have hboth := ((h.stocked.lookup?_iff key p).mpr hp).symm.trans
        ((h.stocked.lookup?_iff key q).mpr hq)
      exact Option.some.inj hboth
    · intro hne hserial
      -- two entries with one object are the same entry
      have hentry := List.inj_on_of_nodup_map h.stocked.serials hp hq hserial
      exact hne (congrArg Prod.fst hentry)
  · have hfits := h.fits hi
    cases answer with
    | ok q => exact (h.stocked.made _ hfits).1.symm
    | error f => exact hfits.symm
  · refine ⟨?_, fun i hi => by rw [next_step hi]; simp only [Request.advance, hf]⟩
    cases hlookup : t.cache.lookup? key with
    | none => rfl
    | some q =>
      have hmade := (h.stocked.made _ ((h.stocked.lookup?_iff key q).mp hlookup)).1
      rw [hf] at hmade
      cases hmade

end Traffic

end QueryCache

end CodeAtlas
