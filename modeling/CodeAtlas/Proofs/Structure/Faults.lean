import CodeAtlas.Entity.Structure
import CodeAtlas.Proofs.Forest.Assembly
import CodeAtlas.Proofs.Query.Transparency
import CodeAtlas.Query.Interpreter

/-!
When structuring fails, and what it gives when it does not.  The profile and the grammar of a file
decide alone whether its entities can be had (`Profile.Misfits`): the grammar has to be one of the
profile's, the structure query has to compile for it, and every label of the query has to be
accepted.  Nothing is matched before that, so a clause with a faulty label fails files in which it
would match nothing.  The cache plays no part (`structured_fst`).

    labels  --check-->  table  --matches-->  candidates  --assemble-->  entities
    accepted            declared kinds       declared kinds, bytes      nested strictly
-/

namespace CodeAtlas

/-! ## Labels -/

namespace Label

/-- A label for predicates only, or the name of a kind that the profile declares, alone or with a
role after a dot. -/
def Accepted (p : Profile) (label : String) : Prop :=
  (∃ rest, label.toList = '_' :: rest) ∨
    ∃ kind : Kind, (∃ group ∈ p.taxonomy.groups, kind ∈ group.kinds) ∧
      (label = kind.name ∨
        ∃ role ∈ ["name", "type", "return", "ref"], label = kind.name ++ "." ++ role)

theorem dot_not_mem_name (k : Kind) : '.' ∉ k.name.toList := by
  cases k <;> decide

theorem ne_dot_of_not_mem {s : String} (h : '.' ∉ s.toList) :
    ∀ c ∈ s.toList, (c != '.') = true := by
  intro c hc
  rw [bne_iff_ne]
  rintro rfl
  exact h hc

theorem split_of_not_mem {s : String} (h : '.' ∉ s.toList) : split s = (s, none) := by
  have hall := ne_dot_of_not_mem h
  unfold split
  dsimp only
  rw [List.takeWhile_eq_self_iff.mpr hall, List.dropWhile_eq_nil_iff.mpr hall, String.ofList_toList]

theorem split_append {s : String} (h : '.' ∉ s.toList) (t : String) :
    split (s ++ "." ++ t) = (s, some t) := by
  have hall := ne_dot_of_not_mem h
  have hlist : (s ++ "." ++ t).toList = s.toList ++ '.' :: t.toList := by simp
  unfold split
  dsimp only
  rw [hlist, List.takeWhile_append_of_pos hall, List.dropWhile_append_of_pos hall]
  simp

theorem eq_of_split {label before : String} {after : Option String}
    (h : split label = (before, after)) :
    label = before ++ (after.map (fun role => "." ++ role)).getD "" := by
  have hparts := List.takeWhile_append_dropWhile (p := fun c => c != '.') (l := label.toList)
  unfold split at h
  dsimp only at h
  cases hrest : label.toList.dropWhile (fun c => c != '.') with
  | nil =>
    rw [hrest] at h hparts
    cases h
    apply String.toList_inj.mp
    simpa using hparts.symm
  | cons dot rest =>
    have hdot : dot = '.' := by
      have hne : label.toList.dropWhile (fun c => c != '.') ≠ [] := by simp [hrest]
      have := List.head_dropWhile_not (fun c => c != '.') hne
      simpa [hrest] using this
    rw [hrest] at h hparts
    cases h
    apply String.toList_inj.mp
    simpa [hdot] using hparts.symm

theorem ofName?_isSome_iff (s : String) :
    (∃ role, Role.ofName? s = some role) ↔ s ∈ ["name", "type", "return", "ref"] := by
  unfold Role.ofName?
  split <;> simp_all

/-- A text writes a label: the name of its kind, with the role after a dot if there is one. -/
def Writes (label : String) (l : Label) : Prop :=
  (label = l.kind.name ∧ l.role = none) ∨
    ∃ r role, label = l.kind.name ++ "." ++ r ∧ Role.ofName? r = some role ∧ l.role = some role

theorem parse_of_underscore {label : String} (h : label.toList.head? = some '_') :
    parse label = .ok none := by
  unfold parse
  rw [if_pos (by simp [h])]

/-- Reading a label that is not for predicates only accepts exactly what writes it. -/
theorem parse_ok_iff {label : String} (hhead : label.toList.head? ≠ some '_')
    (meaning : Option Label) :
    parse label = .ok meaning ↔ ∃ l, meaning = some l ∧ Writes label l := by
  have hnot : ¬ (label.toList.head? == some '_') = true := by simpa using hhead
  unfold parse
  rw [if_neg hnot]
  constructor
  · intro h
    cases hsplit : split label with
    | mk kind role =>
      rw [hsplit] at h
      have hlabel := eq_of_split hsplit
      cases hkind : Kind.ofName? kind with
      | none => simp [hkind] at h
      | some k =>
        rw [← Kind.name_of_ofName? hkind] at hlabel
        cases role with
        | none =>
          simp only [hkind, Except.ok.injEq] at h
          exact ⟨⟨k, none⟩, h.symm, Or.inl ⟨by simpa using hlabel, rfl⟩⟩
        | some r =>
          cases hrole : Role.ofName? r with
          | none => simp [hkind, hrole] at h
          | some role =>
            simp only [hkind, hrole, Except.ok.injEq] at h
            refine ⟨⟨k, some role⟩, h.symm, Or.inr ⟨r, role, ?_, hrole, rfl⟩⟩
            simpa [String.append_assoc] using hlabel
  · rintro ⟨⟨k, role⟩, rfl, ⟨rfl, rfl⟩ | ⟨r, role', rfl, hrole, rfl⟩⟩
    · simp only [split_of_not_mem (dot_not_mem_name k), Kind.ofName?_name]
    · simp only [split_append (dot_not_mem_name k), Kind.ofName?_name, hrole]

theorem check_ok_iff (p : Profile) (label : String) :
    (∃ meaning, check p label = .ok meaning) ↔ Accepted p label := by
  by_cases hhead : label.toList.head? = some '_'
  · refine iff_of_true ⟨none, ?_⟩ (Or.inl (List.head?_eq_some_iff.mp hhead))
    unfold check
    rw [parse_of_underscore hhead]
  · constructor
    · rintro ⟨meaning, h⟩
      right
      unfold check at h
      cases hparse : parse label with
      | error e => simp [hparse] at h
      | ok found =>
        obtain ⟨l, rfl, hwrites⟩ := (parse_ok_iff hhead found).mp hparse
        simp only [hparse] at h
        split at h
        · rename_i hdeclared
          refine ⟨l.kind, (p.taxonomy.contains_iff l.kind).mp hdeclared, ?_⟩
          rcases hwrites with ⟨hname, -⟩ | ⟨r, role, hname, hrole, -⟩
          · exact Or.inl hname
          · exact Or.inr ⟨r, (ofName?_isSome_iff r).mp ⟨role, hrole⟩, hname⟩
        · cases h
    · rintro (hunder | ⟨kind, hdeclared, hname⟩)
      · exact absurd (List.head?_eq_some_iff.mpr hunder) hhead
      · have hwrites : ∃ role, Writes label ⟨kind, role⟩ := by
          rcases hname with hname | ⟨r, hr, hname⟩
          · exact ⟨none, Or.inl ⟨hname, rfl⟩⟩
          · obtain ⟨role, hrole⟩ := (ofName?_isSome_iff r).mpr hr
            exact ⟨some role, Or.inr ⟨r, role, hname, hrole, rfl⟩⟩
        obtain ⟨role, hwrites⟩ := hwrites
        refine ⟨some ⟨kind, role⟩, ?_⟩
        unfold check
        rw [(parse_ok_iff hhead _).mpr ⟨_, rfl, hwrites⟩]
        exact if_pos ((p.taxonomy.contains_iff kind).mpr hdeclared)

theorem contains_of_check {p : Profile} {label : String} {l : Label}
    (h : check p label = .ok (some l)) : p.taxonomy.contains l.kind = true := by
  unfold check at h
  split at h
  · cases h
  · cases h
  · split at h
    · rename_i hdeclared
      cases h
      exact hdeclared
    · cases h

/-! ## All labels of a query -/

/-- The first label of a list that is not accepted, and what is wrong with it. -/
def FirstFault (p : Profile) (labels : List String) (label : String) (fault : LabelFault) : Prop :=
  ∃ before after, labels = before ++ label :: after ∧ (∀ l ∈ before, Accepted p l) ∧
    ¬ Accepted p label ∧ check p label = .error fault

/-- Checking ends at the first label that is not accepted, which the failure names; if there is none
it gives a table of declared kinds. -/
theorem checkAll_cases (p : Profile) (grammar : String) (labels : List String) :
    (∃ label fault, FirstFault p labels label fault ∧
      checkAll p grammar labels = .error (.query grammar ("@" ++ label) fault.message)) ∨
    ((∀ l ∈ labels, Accepted p l) ∧ ∃ table, checkAll p grammar labels = .ok table ∧
      ∀ entry ∈ table, p.taxonomy.contains entry.2.kind = true) := by
  induction labels with
  | nil => exact Or.inr ⟨by simp, [], rfl, by simp⟩
  | cons label rest ih =>
    unfold checkAll
    cases hcheck : check p label with
    | error fault =>
      left
      have hnot : ¬ Accepted p label := by
        rw [← check_ok_iff, hcheck]
        rintro ⟨_, h⟩
        cases h
      exact ⟨label, fault, ⟨[], rest, rfl, by simp, hnot, hcheck⟩, rfl⟩
    | ok meaning =>
      have haccepted : Accepted p label := (check_ok_iff p label).mp ⟨meaning, hcheck⟩
      rcases ih with ⟨faulty, fault, ⟨before, after, hsplit, hbefore, hnot, hfault⟩, herror⟩ |
        ⟨hall, table, hok, htable⟩
      · -- the first fault of the rest stays the first, since this label has none
        have hlabels : label :: rest = (label :: before) ++ faulty :: after := by
          rw [hsplit]
          rfl
        refine Or.inl ⟨faulty, fault, ⟨label :: before, after, hlabels, ?_, hnot, hfault⟩, ?_⟩
        · exact List.forall_mem_cons.mpr ⟨haccepted, hbefore⟩
        · dsimp only
          rw [herror]
          rfl
      · refine Or.inr ⟨List.forall_mem_cons.mpr ⟨haccepted, hall⟩,
          (meaning.map (fun l => (label, l))).toList ++ table, ?_, ?_⟩
        · dsimp only
          rw [hok]
          rfl
        · intro entry hentry
          rcases List.mem_append.mp hentry with hentry | hentry
          · obtain ⟨l, rfl, rfl⟩ : ∃ l, meaning = some l ∧ (label, l) = entry := by
              simpa using hentry
            exact contains_of_check hcheck
          · exact htable entry hentry

end Label

/-! ## Candidates -/

namespace Candidate

theorem marked_kind {table : List (String × Label)} {captures : Captures} {kind : Kind}
    {node : NodeInfo} (h : marked? table captures = some (kind, node)) :
    ∃ entry ∈ table, entry.2.kind = kind := by
  obtain ⟨capture, -, h⟩ := List.exists_of_findSome?_eq_some h
  split at h
  · rename_i found hmeaning
    cases h
    obtain ⟨entry, hentry, heq⟩ := Option.map_eq_some_iff.mp hmeaning
    exact ⟨entry, List.mem_of_find?_eq_some hentry, by rw [heq]⟩
  · cases h

theorem addText_keeps (c : Candidate) (role : Role) (text : String) :
    (c.addText role text).kind = c.kind ∧ (c.addText role text).span = c.span := by
  cases role with
  | name => by_cases h : c.name.isSome = true <;> simp [addText, h]
  | type => simp only [addText, and_self]
  | result => simp only [addText, and_self]
  | reference => simp only [addText, and_self]

theorem addCapture_keeps (f : SourceFile) (table : List (String × Label)) (c : Candidate)
    (capture : String × Node) :
    (c.addCapture f table capture).kind = c.kind ∧ (c.addCapture f table capture).span = c.span := by
  unfold addCapture
  split
  · split
    · exact addText_keeps c _ _
    · exact ⟨rfl, rfl⟩
  · exact ⟨rfl, rfl⟩

theorem foldl_addCapture_keeps (f : SourceFile) (table : List (String × Label)) (c : Candidate)
    (captures : Captures) :
    (captures.foldl (addCapture f table) c).kind = c.kind ∧
      (captures.foldl (addCapture f table) c).span = c.span := by
  induction captures generalizing c with
  | nil => exact ⟨rfl, rfl⟩
  | cons capture rest ih =>
    obtain ⟨hkind, hspan⟩ := addCapture_keeps f table c capture
    rw [List.foldl_cons, (ih _).1, (ih _).2]
    exact ⟨hkind, hspan⟩

theorem kind_of_ofMatch? {f : SourceFile} {table : List (String × Label)} {m : QueryMatch}
    {c : Candidate} (h : ofMatch? f table m = some c) :
    (∃ entry ∈ table, entry.2.kind = c.kind) ∧ c.span.isEmpty = false := by
  unfold ofMatch? at h
  split at h
  · cases h
  · rename_i kind node hmarked
    dsimp only at h
    split at h
    · cases h
    · rename_i hbytes
      cases h
      obtain ⟨hkind, hspan⟩ := foldl_addCapture_keeps f table
        ⟨kind, m.clause, f.spanOf node, none, none, none, []⟩ m.captures
      rw [hkind, hspan]
      exact ⟨marked_kind hmarked, by simpa using hbytes⟩

end Candidate

/-! ## Entities -/

namespace Forest

open Entity

theorem candidate_of_walk {cs : List Candidate} {e : Entity} (h : e ∈ walk (assemble cs)) :
    ∃ c ∈ cs, e.facts.kind = c.kind ∧ e.facts.span = c.span := by
  obtain ⟨c, hc, hsaid⟩ := exists_saidBy h
  exact ⟨c, hc, hsaid.kind, hsaid.span⟩

/-- A child covers some of the bytes of its owner, and not the same ones. -/
theorem contains_of_child {cs : List Candidate} {p e : Entity} (hp : p ∈ walk (assemble cs))
    (he : e ∈ p.children) : p.facts.span.contains e.facts.span = true ∧
      p.facts.span.sameRange e.facts.span = false := by
  rw [walk_eq_preorder] at hp
  obtain ⟨j, i, hj, hi, hin⟩ := (nested_assemble cs).child p hp e he
  have hbefore := before_of_lt (spans_before cs) hj hi hin.before
  obtain ⟨s, t, hs, ht, hcontains⟩ := hin.encloses
  rw [hj] at hs
  rw [hi] at ht
  cases hs
  cases ht
  refine ⟨hcontains, ?_⟩
  rw [← Bool.not_eq_true, Span.sameRange_iff]
  unfold Span.Before at hbefore
  omega

end Forest

/-! ## Structuring -/

section

variable [QueryEngine]

namespace Profile

/-- What a profile has for the files of a grammar, compiled and checked on the spot. -/
def fitted (p : Profile) (grammar : String) : Except Failure (List (String × Label) × Query) :=
  match p.grammar? grammar with
  | none =>
    .error (.query grammar QueryName.structural.text
      ("grammar is not part of the " ++ p.id ++ " profile"))
  | some g => p.labelled g (QueryCache.compile (p.structureKey g))

/-- The profile cannot structure files of a grammar: it has no such grammar, its structure query does
not compile for it, or a label of the query is not accepted. -/
def Misfits (p : Profile) (grammar : String) : Prop :=
  p.grammar? grammar = none ∨
    ∃ g, p.grammar? grammar = some g ∧
      ((∃ reason, Query.compile g.handle (p.queries.get .structural).source = .error reason) ∨
        ∃ q, Query.compile g.handle (p.queries.get .structural).source = .ok q ∧
          ∃ label ∈ q.labels, ¬ Label.Accepted p label)

/-- The ways in which fitting a profile to a grammar ends. -/
inductive Fit (p : Profile) (grammar : String) :
    Except Failure (List (String × Label) × Query) → Prop where
  | foreign (h : p.grammar? grammar = none) : Fit p grammar (.error (.query grammar
      QueryName.structural.text ("grammar is not part of the " ++ p.id ++ " profile")))
  /-- The query does not compile. -/
  | refused {g : Grammar} {reason : String} (hg : p.grammar? grammar = some g)
      (hq : Query.compile g.handle (p.queries.get .structural).source = .error reason) :
      Fit p grammar (.error (.query g.id (p.queries.get .structural).source reason))
  | faulty {g : Grammar} {q : Query} {label : String} {fault : LabelFault}
      (hg : p.grammar? grammar = some g)
      (hq : Query.compile g.handle (p.queries.get .structural).source = .ok q)
      (h : Label.FirstFault p q.labels label fault) :
      Fit p grammar (.error (.query g.id ("@" ++ label) fault.message))
  | fits {g : Grammar} {q : Query} {table : List (String × Label)}
      (hg : p.grammar? grammar = some g)
      (hq : Query.compile g.handle (p.queries.get .structural).source = .ok q)
      (h : ∀ label ∈ q.labels, Label.Accepted p label)
      (htable : ∀ entry ∈ table, p.taxonomy.contains entry.2.kind = true) :
      Fit p grammar (.ok (table, q))

theorem fit_fitted (p : Profile) (grammar : String) : Fit p grammar (p.fitted grammar) := by
  unfold fitted
  cases hg : p.grammar? grammar with
  | none => exact .foreign hg
  | some g =>
    dsimp only
    unfold QueryCache.compile structureKey
    cases hq : Query.compile g.handle (p.queries.get .structural).source with
    | error reason => exact .refused hg hq
    | ok q =>
      show Fit p grammar ((Label.checkAll p g.id q.labels).map _)
      rcases Label.checkAll_cases p g.id q.labels with ⟨label, fault, hfirst, herror⟩ |
        ⟨hall, table, hok, htable⟩
      · rw [herror]
        exact .faulty hg hq hfirst
      · rw [hok]
        exact .fits hg hq hall htable

theorem kind_of_fitted {p : Profile} {grammar : String} {e : Failure}
    (h : p.fitted grammar = .error e) : e.kind = .query := by
  have hfit := p.fit_fitted grammar
  rw [h] at hfit
  cases hfit <;> rfl

/-- The table of a profile that fits has kinds of its taxonomy only. -/
theorem contains_of_fitted {p : Profile} {grammar : String} {table : List (String × Label)}
    {q : Query} (h : p.fitted grammar = .ok (table, q)) :
    ∀ entry ∈ table, p.taxonomy.contains entry.2.kind = true := by
  have hfit := p.fit_fitted grammar
  rw [h] at hfit
  cases hfit with
  | fits _ _ _ htable => exact htable

theorem fitted_of_faulty_label {p : Profile} {grammar : String} {g : Grammar} {q : Query}
    (hgrammar : p.grammar? grammar = some g)
    (hcompile : Query.compile g.handle (p.queries.get .structural).source = .ok q)
    (hlabel : ∃ label ∈ q.labels, ¬ Label.Accepted p label) :
    ∃ label fault, Label.FirstFault p q.labels label fault ∧
      p.fitted grammar = .error (.query g.id ("@" ++ label) fault.message) := by
  obtain ⟨label, hmem, hnot⟩ := hlabel
  have hfit := p.fit_fitted grammar
  generalize p.fitted grammar = result at hfit
  cases hfit with
  | foreign h => simp [hgrammar] at h
  | refused hg hq =>
    obtain rfl := Option.some.inj (hgrammar.symm.trans hg)
    simp [hcompile] at hq
  | faulty hg hq h =>
    obtain rfl := Option.some.inj (hgrammar.symm.trans hg)
    obtain rfl := Except.ok.inj (hcompile.symm.trans hq)
    exact ⟨_, _, h, rfl⟩
  | fits hg hq h _ =>
    obtain rfl := Option.some.inj (hgrammar.symm.trans hg)
    obtain rfl := Except.ok.inj (hcompile.symm.trans hq)
    exact absurd (h label hmem) hnot

theorem misfits_of_fitted_error {p : Profile} {grammar : String} {e : Failure}
    (h : p.fitted grammar = .error e) : p.Misfits grammar := by
  have hfit := p.fit_fitted grammar
  rw [h] at hfit
  cases hfit with
  | foreign hg => exact Or.inl hg
  | refused hg hq => exact Or.inr ⟨_, hg, Or.inl ⟨_, hq⟩⟩
  | faulty hg hq hfirst =>
    obtain ⟨before, after, hsplit, -, hnot, -⟩ := hfirst
    exact Or.inr ⟨_, hg, Or.inr ⟨_, hq, _, by rw [hsplit]; simp, hnot⟩⟩

theorem fitted_error_iff (p : Profile) (grammar : String) :
    (∃ e, p.fitted grammar = .error e) ↔ p.Misfits grammar := by
  constructor
  · rintro ⟨e, h⟩
    exact misfits_of_fitted_error h
  · rintro (hnone | ⟨g, hg, ⟨reason, hreason⟩ | ⟨q, hq, hlabel⟩⟩)
    · exact ⟨_, by unfold fitted; rw [hnone]⟩
    · refine ⟨.query g.id (p.queries.get .structural).source reason, ?_⟩
      unfold fitted QueryCache.compile structureKey
      rw [hg]
      dsimp only
      rw [hreason]
      rfl
    · obtain ⟨label, fault, -, herror⟩ := fitted_of_faulty_label hg hq hlabel
      exact ⟨_, herror⟩

end Profile

namespace SourceFile

theorem structured_of_foreign {f : SourceFile} {p : Profile} {e : Failure}
    (h : f.grammarIn p .structural = .error e) (cache : QueryCache) :
    f.structured p cache = (.error e, cache) := by
  unfold structured
  rw [h]

/-- Structuring makes one request of the cache, and the query is all it takes from the answer. -/
theorem structured_eq {f : SourceFile} {p : Profile} {g : Grammar}
    (h : f.grammarIn p .structural = .ok g) (cache : QueryCache) :
    f.structured p cache =
      (f.structuredBy p g ((cache.get (p.structureKey g)).1.map fun q => q.query),
        (cache.get (p.structureKey g)).2) := by
  unfold structured structuredBy
  rw [h]
  dsimp only
  cases hget : cache.get ⟨g, (p.queries.get .structural).source⟩ with
  | mk answer next =>
    rw [show cache.get (p.structureKey g) = (answer, next) from hget]
    cases answer with
    | error e => rfl
    | ok compiled =>
      show _ = (Except.map _ ((Label.checkAll p g.id compiled.query.labels).map _), next)
      dsimp only
      cases Label.checkAll p g.id compiled.query.labels with
      | error e => rfl
      | ok table => rfl

/-- The structurer by queries does to the cache and gives what structuring does and gives. -/
theorem through_query (f : SourceFile) (p : Profile) (cache : QueryCache) :
    (Structurer.query p f).through cache = f.structured p cache := by
  unfold Structurer.query
  cases h : f.grammarIn p .structural with
  | error e => rw [structured_of_foreign h]; rfl
  | ok g => rw [structured_eq h]; rfl

theorem structured_fst (f : SourceFile) (p : Profile) {c : QueryCache} (hc : c.Reachable) :
    (f.structured p c).1 = (p.fitted f.grammar).map fun fit => f.entitiesOf fit.1 fit.2 := by
  unfold Profile.fitted
  cases hgrammar : p.grammar? f.grammar with
  | none =>
    have hforeign : f.grammarIn p .structural = .error (.query f.grammar QueryName.structural.text
        ("grammar is not part of the " ++ p.id ++ " profile")) := by
      unfold grammarIn
      rw [hgrammar]
    rw [structured_of_foreign hforeign]
    rfl
  | some g =>
    have hown : f.grammarIn p .structural = .ok g := by
      unfold grammarIn
      rw [hgrammar]
    rw [structured_eq hown, hc.answer]
    rfl

theorem structured_error_iff (f : SourceFile) (p : Profile) {c : QueryCache} (hc : c.Reachable)
    (e : Failure) : (f.structured p c).1 = .error e ↔ p.fitted f.grammar = .error e := by
  rw [structured_fst f p hc]
  cases p.fitted f.grammar with
  | error e' => simp [Except.map]
  | ok fit => simp [Except.map]

theorem structured_ok_iff (f : SourceFile) (p : Profile) {c : QueryCache} (hc : c.Reachable)
    (entities : List Entity) : (f.structured p c).1 = .ok entities ↔
      ∃ table q, p.fitted f.grammar = .ok (table, q) ∧ entities = f.entitiesOf table q := by
  rw [structured_fst f p hc]
  cases p.fitted f.grammar with
  | error e => simp [Except.map]
  | ok fit =>
    obtain ⟨table, q⟩ := fit
    simp only [Except.map, Except.ok.injEq, Prod.mk.injEq]
    constructor
    · rintro rfl
      exact ⟨table, q, ⟨rfl, rfl⟩, rfl⟩
    · rintro ⟨_, _, ⟨rfl, rfl⟩, rfl⟩
      rfl

/-- The entities that a query finds have kinds of the table, cover bytes and nest strictly. -/
theorem entitiesOf_spec (f : SourceFile) (table : List (String × Label)) (q : Query) {e : Entity}
    (h : e ∈ Entity.walk (f.entitiesOf table q)) :
    (∃ entry ∈ table, entry.2.kind = e.facts.kind) ∧ e.facts.span.isEmpty = false ∧
      ∀ child ∈ e.children, e.facts.span.contains child.facts.span = true ∧
        e.facts.span.sameRange child.facts.span = false := by
  obtain ⟨c, hc, hkind, hspan⟩ := Forest.candidate_of_walk h
  obtain ⟨m, -, hm⟩ := List.mem_filterMap.mp hc
  rw [hkind, hspan]
  obtain ⟨hdeclared, hbytes⟩ := Candidate.kind_of_ofMatch? hm
  refine ⟨hdeclared, hbytes, fun child hchild => ?_⟩
  rw [← hspan]
  exact Forest.contains_of_child h hchild

/-- **Structuring fails exactly for profiles that do not fit.**  Whatever a file holds and whatever
the cache went through, its entities cannot be had if and only if the profile does not fit the
grammar of the file; the failure is then one of the query, the same for all files of the grammar,
and if it is for a label it names the first that is not accepted.  Otherwise every entity, at every
depth, has a kind that the profile declares and covers bytes, and a child covers some of the bytes
of its owner and not all. -/
theorem structured_fails_iff_misfits (f : SourceFile) (p : Profile) {c : QueryCache}
    (hc : c.Reachable) :
    ((∃ e, (f.structured p c).1 = .error e) ↔ p.Misfits f.grammar) ∧
    (∀ e, (f.structured p c).1 = .error e → e.kind = .query) ∧
    (∀ g q, p.grammar? f.grammar = some g →
      Query.compile g.handle (p.queries.get .structural).source = .ok q →
      (∃ label ∈ q.labels, ¬ Label.Accepted p label) →
      ∃ label fault, Label.FirstFault p q.labels label fault ∧
        (f.structured p c).1 = .error (.query g.id ("@" ++ label) fault.message)) ∧
    (∀ (f' : SourceFile) (c' : QueryCache), f'.grammar = f.grammar → c'.Reachable →
      ∀ e, (f'.structured p c').1 = .error e ↔ (f.structured p c).1 = .error e) ∧
    (∀ entities, (f.structured p c).1 = .ok entities → ∀ e ∈ Entity.walk entities,
      p.taxonomy.contains e.facts.kind = true ∧ e.facts.span.isEmpty = false ∧
      ∀ child ∈ e.children, e.facts.span.contains child.facts.span = true ∧
        e.facts.span.sameRange child.facts.span = false) := by
  refine ⟨?_, ?_, ?_, ?_, ?_⟩
  · simp only [structured_error_iff f p hc]
    exact p.fitted_error_iff f.grammar
  · intro e he
    exact Profile.kind_of_fitted ((structured_error_iff f p hc e).mp he)
  · intro g q hgrammar hcompile hlabel
    obtain ⟨label, fault, hfirst, herror⟩ :=
      Profile.fitted_of_faulty_label hgrammar hcompile hlabel
    exact ⟨label, fault, hfirst, (structured_error_iff f p hc _).mpr herror⟩
  · intro f' c' hgrammar hc' e
    rw [structured_error_iff f' p hc', structured_error_iff f p hc, hgrammar]
  · intro entities hentities e he
    obtain ⟨table, q, hfit, rfl⟩ := (structured_ok_iff f p hc entities).mp hentities
    obtain ⟨⟨entry, hentry, hkind⟩, hrest⟩ := f.entitiesOf_spec table q he
    rw [← hkind]
    exact ⟨Profile.contains_of_fitted hfit entry hentry, hrest⟩

end SourceFile

end

/-- A language whose structure query has a label of a kind that there is not. -/
def Profile.mislabelled : Profile where
  id := "notes"
  aliases := []
  extensions := ["txt"]
  defaultGrammar := .ofHandle .python
  otherGrammars := []
  extensionGrammars := []
  testRule := .anyOf []
  queries := ⟨fun name => ⟨name, "notes", 1, "(class_definition) @widget"⟩⟩
  taxonomy := ⟨[.modules]⟩
  builtinTypes := []
  autoSelect := []

/-- An empty file, in which the clause with the faulty label matches nothing. -/
def SourceFile.emptyNote : SourceFile :=
  ⟨"a.txt", "notes", "python", [],
    .node { (default : NodeInfo) with kind := "module", named := true } []⟩

theorem SourceFile.structured_fails_iff_misfits_unmatched :
    QueryCache.empty.Reachable ∧
    ∃ label fault, Label.FirstFault .mislabelled ["widget"] label fault ∧
      (emptyNote.structured .mislabelled .empty).1 =
        .error (.query "python" ("@" ++ label) fault.message) := by
  have hreachable := QueryCache.reachable_empty
  refine ⟨hreachable, ?_⟩
  obtain ⟨-, -, hfirst, -⟩ := structured_fails_iff_misfits emptyNote .mislabelled hreachable
  have hwidget : ¬ Label.Accepted .mislabelled "widget" := by
    have hkind : Kind.ofName? "widget" = none := by decide
    rw [← Label.check_ok_iff]
    simp [Label.check, Label.parse, Label.split_of_not_mem, hkind]
  refine hfirst (.ofHandle .python) ⟨_, ["widget"]⟩ (by cbv) (by cbv) ?_
  exact ⟨"widget", List.mem_cons_self, hwidget⟩

end CodeAtlas
