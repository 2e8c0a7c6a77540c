import CodeAtlas.Query.Cache
import CodeAtlas.Proofs.Keyed
import Mathlib.Data.Finset.Card

/-!
The counters of the cache.  Calls come one after another, and each of them is a hit, is refused
because its text does not compile, or stores a query that it has just compiled (`Call`).  The
invariant is `Tallied`: the entries are the keys that were asked for and compile, each of them once,
and as many texts were compiled.

    calls so far, next key      the key compiles and is among them     hit
                                the key compiles and is not            miss, one entry more
                                the key does not compile               miss, whatever came before

`calls_counted` is the result for every sequence of calls.
-/

namespace CodeAtlas

variable [QueryEngine]

namespace QueryKey

/-- The text of a key is a query for the grammar of the key. -/
def compiles (key : QueryKey) : Bool :=
  (Query.compile key.grammar.handle key.pattern).isOk

theorem compiles_iff (key : QueryKey) : key.compiles = true ↔
    ∃ q, Query.compile key.grammar.handle key.pattern = .ok q := by
  unfold compiles
  cases Query.compile key.grammar.handle key.pattern <;> simp [Except.isOk, Except.toBool]

theorem compiles_eq_false_iff (key : QueryKey) : key.compiles = false ↔
    ∃ reason, Query.compile key.grammar.handle key.pattern = .error reason := by
  unfold compiles
  cases Query.compile key.grammar.handle key.pattern <;> simp [Except.isOk, Except.toBool]

end QueryKey

namespace QueryCache

def afterCalls (calls : List QueryKey) : QueryCache :=
  calls.foldl (fun c key => (c.get key).2) empty

theorem afterCalls_concat (calls : List QueryKey) (key : QueryKey) :
    afterCalls (calls ++ [key]) = ((afterCalls calls).get key).2 :=
  List.foldl_concat _ _ _ _

def keys (c : QueryCache) : List QueryKey :=
  c.entries.map (fun e => e.1)

theorem lookup?_eq_none_iff (c : QueryCache) (key : QueryKey) :
    c.lookup? key = none ↔ key ∉ c.keys := by
  rw [lookup?, Option.map_eq_none_iff, List.find?_eq_none, keys, List.mem_map]
  constructor
  · rintro h ⟨e, he, rfl⟩
    exact h e he (beq_self_eq_true _)
  · intro h e he heq
    exact h ⟨e, he, beq_iff_eq.mp heq⟩

/-! ## One call -/

/-- Everything that a call can do. -/
inductive Call (c : QueryCache) (key : QueryKey) : Except Failure Compiled × QueryCache → Prop where
  | hit {q : Compiled} (h : key ∈ c.keys) : Call c key (.ok q, { c with hits := c.hits + 1 })
  | refused {reason : String} (h : key ∉ c.keys)
      (hq : Query.compile key.grammar.handle key.pattern = .error reason) :
      Call c key (.error (.query key.grammar.id key.pattern reason),
        { c with misses := c.misses + 1 })
  | stored {q : Query} (h : key ∉ c.keys)
      (hq : Query.compile key.grammar.handle key.pattern = .ok q) :
      Call c key (.ok ⟨c.compiles, q⟩,
        ⟨c.entries ++ [(key, ⟨c.compiles, q⟩)], c.hits, c.misses + 1, c.compiles + 1⟩)

theorem call_get (c : QueryCache) (key : QueryKey) : Call c key (c.get key) := by
  unfold get
  cases hlookup : c.lookup? key with
  | some q =>
    refine .hit (by_contra fun hnew => ?_)
    rw [(c.lookup?_eq_none_iff key).mpr hnew] at hlookup
    cases hlookup
  | none =>
    have hnew : key ∉ c.keys := (c.lookup?_eq_none_iff key).mp hlookup
    unfold compile
    cases hq : Query.compile key.grammar.handle key.pattern with
    | error reason => exact .refused hnew hq
    | ok q =>
      simp only [Except.mapError, insert, lookup?] at hlookup ⊢
      simp only [hlookup]
      exact .stored hnew hq

/-! ## The invariant -/

/-- A cache that says what calls were made of it. -/
structure Tallied (calls : List QueryKey) (c : QueryCache) : Prop where
  answered : c.hits + c.misses = calls.length
  compiled : c.compiles = c.size
  distinct : c.keys.Nodup
  stored : ∀ key, key ∈ c.keys ↔ key ∈ calls ∧ key.compiles = true

theorem tallied_empty : Tallied [] empty where
  answered := rfl
  compiled := rfl
  distinct := List.nodup_nil
  stored := by simp [keys, empty]

theorem Tallied.get {calls : List QueryKey} {c : QueryCache} (h : Tallied calls c)
    (key : QueryKey) : Tallied (calls ++ [key]) (c.get key).2 := by
  -- only a key that compiles and was not asked for before asks for one entry more
  have hasked : ∀ k, k ∈ calls ++ [key] ∧ k.compiles = true ↔
      k ∈ c.keys ∨ k = key ∧ key.compiles = true := by
    intro k
    rw [h.stored, List.mem_append, List.mem_singleton, or_and_right]
    refine or_congr_right ⟨?_, ?_⟩
    · rintro ⟨rfl, hok⟩
      exact ⟨rfl, hok⟩
    · rintro ⟨rfl, hok⟩
      exact ⟨rfl, hok⟩
  have hcall := call_get c key
  generalize c.get key = after at hcall
  cases hcall with
  | hit hold =>
    refine ⟨?_, h.compiled, h.distinct, fun k => ?_⟩
    · rw [List.length_append, List.length_singleton, ← h.answered]
      exact Nat.add_right_comm _ _ _
    · rw [hasked]
      refine ⟨.inl, ?_⟩
      rintro (hk | ⟨rfl, -⟩)
      · exact hk
      · exact hold
  | refused _ hq =>
    refine ⟨?_, h.compiled, h.distinct, fun k => ?_⟩
    · rw [List.length_append, List.length_singleton, ← h.answered]
      rfl
    · rw [hasked]
      refine ⟨.inl, ?_⟩
      rintro (hk | ⟨-, hok⟩)
      · exact hk
      · rw [(key.compiles_eq_false_iff).mpr ⟨_, hq⟩] at hok
        cases hok
  | stored hnew hq =>
    refine ⟨?_, ?_, ?_, fun k => ?_⟩
    · rw [List.length_append, List.length_singleton, ← h.answered]
      rfl
    · show c.compiles + 1 = (c.entries ++ [_]).length
      rw [List.length_append, List.length_singleton, h.compiled]
      rfl
    · refine nodup_keys_append _ h.distinct fun e he heq => hnew ?_
      exact List.mem_map.mpr ⟨e, he, heq⟩
    · have hkeys : ∀ q : Compiled,
          k ∈ (c.entries ++ [(key, q)]).map (fun e => e.1) ↔ k ∈ c.keys ∨ k = key := by
        intro q
        rw [List.map_append, List.mem_append, List.map_singleton, List.mem_singleton]
        rfl
      rw [hasked, keys, hkeys, and_iff_left ((key.compiles_iff).mpr ⟨_, hq⟩)]

theorem tallied_afterCalls (calls : List QueryKey) : Tallied calls (afterCalls calls) := by
  induction calls using List.reverseRecOn with
  | nil => exact tallied_empty
  | append_singleton calls key ih =>
    rw [afterCalls_concat]
    exact ih.get key

/-! ## What the calls get -/

theorem Tallied.answers_iff {calls : List QueryKey} {c : QueryCache} (h : Tallied calls c)
    (key : QueryKey) : (∃ q, (c.get key).1 = .ok q) ↔ key.compiles = true := by
  have hcall := call_get c key
  generalize c.get key = after at hcall
  cases hcall with
  | hit hold => exact iff_of_true ⟨_, rfl⟩ ((h.stored key).mp hold).2
  | refused _ hq =>
    rw [(key.compiles_eq_false_iff).mpr ⟨_, hq⟩]
    simp
  | stored _ hq => exact iff_of_true ⟨_, rfl⟩ ((key.compiles_iff).mpr ⟨_, hq⟩)

theorem hit_iff (c : QueryCache) (key : QueryKey) :
    (c.get key).2.hits = c.hits + 1 ↔ key ∈ c.keys := by
  have hcall := call_get c key
  generalize c.get key = after at hcall
  cases hcall with
  | hit hold => exact iff_of_true rfl hold
  | refused hnew _ => exact iff_of_false (Nat.ne_of_lt (Nat.lt_succ_self _)) hnew
  | stored hnew _ => exact iff_of_false (Nat.ne_of_lt (Nat.lt_succ_self _)) hnew

theorem Tallied.get_of_refused {calls : List QueryKey} {c : QueryCache} (h : Tallied calls c)
    {key : QueryKey} {reason : String}
    (hq : Query.compile key.grammar.handle key.pattern = .error reason) :
    c.get key = (.error (.query key.grammar.id key.pattern reason),
      { c with misses := c.misses + 1 }) := by
  have hcall := call_get c key
  generalize c.get key = after at hcall
  cases hcall with
  | hit hold =>
    have hok := ((h.stored key).mp hold).2
    rw [(key.compiles_eq_false_iff).mpr ⟨_, hq⟩] at hok
    cases hok
  | refused _ hq' =>
    rw [hq] at hq'
    cases hq'
    rfl
  | stored _ hq' =>
    rw [hq] at hq'
    cases hq'

theorem Tallied.size_eq {calls : List QueryKey} {c : QueryCache} (h : Tallied calls c) :
    c.size = (calls.toFinset.filter (fun key => key.compiles = true)).card := by
  have hkeys : c.keys.toFinset = calls.toFinset.filter (fun key => key.compiles = true) := by
    ext key
    rw [List.mem_toFinset, Finset.mem_filter, List.mem_toFinset, h.stored]
  rw [← hkeys, List.toFinset_card_of_nodup h.distinct, keys, List.length_map, size]

theorem Tallied.size_le {calls : List QueryKey} {c : QueryCache} (h : Tallied calls c) :
    c.size ≤ calls.length := by
  rw [h.size_eq]
  exact (Finset.card_filter_le _ _).trans (List.toFinset_card_le calls)

/-- What the cache tells, when it tells 64 bits of each counter. -/
theorem Tallied.stats_eq {calls : List QueryKey} {c : QueryCache} (h : Tallied calls c) :
    c.stats.entries = c.size ∧ c.stats.hits + c.stats.misses = calls.length.toUInt64 ∧
      c.stats.compiles = c.size.toUInt64 := by
  refine ⟨rfl, ?_, ?_⟩
  · rw [← h.answered]
    exact (UInt64.ofNat_add _ _).symm
  · rw [← h.compiled]
    rfl

/-- Nothing is lost of the counters before there have been 2 ^ 64 calls. -/
theorem Tallied.toNat_stats {calls : List QueryKey} {c : QueryCache} (h : Tallied calls c)
    (hcalls : calls.length < UInt64.size) : c.stats.hits.toNat = c.hits ∧
      c.stats.misses.toNat = c.misses ∧ c.stats.compiles.toNat = c.compiles := by
  have hanswered := h.answered
  have hsize := h.size_le
  rw [← h.compiled] at hsize
  exact ⟨UInt64.toNat_ofNat_of_lt' (by omega), UInt64.toNat_ofNat_of_lt' (by omega),
    UInt64.toNat_ofNat_of_lt' (by omega)⟩

/-- **The counters say what the calls were.**  Make any calls one after another on a new cache.  Each
of them is a hit or a miss; as many texts were compiled as there are entries, and that is the number
of different keys among the calls that compile.  The next call is a hit if and only if an earlier call
for the same key got a query.  If its text does not compile, it is a miss, however often it was made
before, it gets the failure that belongs to its key, and nothing but the count of misses changes.
What the cache tells of its counters is this modulo 2 ^ 64, and exactly this up to 2 ^ 64 calls. -/
theorem calls_counted (calls : List QueryKey) :
    (afterCalls calls).hits + (afterCalls calls).misses = calls.length ∧
    (afterCalls calls).compiles = (afterCalls calls).size ∧
    (afterCalls calls).size = (calls.toFinset.filter (fun key => key.compiles = true)).card ∧
    (∀ key, ((afterCalls calls).get key).2.hits = (afterCalls calls).hits + 1 ↔
      ∃ before between, calls = before ++ key :: between ∧
        ∃ q, ((afterCalls before).get key).1 = .ok q) ∧
    (∀ key reason, Query.compile key.grammar.handle key.pattern = .error reason →
      (afterCalls calls).get key = (.error (.query key.grammar.id key.pattern reason),
        { afterCalls calls with misses := (afterCalls calls).misses + 1 })) ∧
    (afterCalls calls).stats.entries = (afterCalls calls).size ∧
    (afterCalls calls).stats.hits + (afterCalls calls).stats.misses = calls.length.toUInt64 ∧
    (afterCalls calls).stats.compiles = (afterCalls calls).size.toUInt64 ∧
    (calls.length < UInt64.size → (afterCalls calls).stats.hits.toNat = (afterCalls calls).hits ∧
      (afterCalls calls).stats.misses.toNat = (afterCalls calls).misses ∧
      (afterCalls calls).stats.compiles.toNat = (afterCalls calls).compiles) := by
  have h := tallied_afterCalls calls
  obtain ⟨hentries, hanswered, hcompiles⟩ := h.stats_eq
  refine ⟨h.answered, h.compiled, h.size_eq, fun key => ?_, fun key reason => h.get_of_refused,
    hentries, hanswered, hcompiles, h.toNat_stats⟩
  rw [hit_iff, h.stored, List.mem_iff_append]
  constructor
  · rintro ⟨⟨before, between, hcalls⟩, hok⟩
    exact ⟨before, between, hcalls, ((tallied_afterCalls before).answers_iff key).mpr hok⟩
  · rintro ⟨before, between, hcalls, hgot⟩
    exact ⟨⟨before, between, hcalls⟩, ((tallied_afterCalls before).answers_iff key).mp hgot⟩

end QueryCache

end CodeAtlas
