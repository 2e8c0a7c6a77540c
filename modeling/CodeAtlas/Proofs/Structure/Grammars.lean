import CodeAtlas.Navigation
import CodeAtlas.Proofs.Profile.Lookup
import CodeAtlas.Proofs.Registry.Additive
import CodeAtlas.Proofs.Structure.Faults

/-!
The grammar of a file, looked up again.  A file keeps the id of the grammar it was parsed with, and
whoever runs a query on its tree asks a profile for the grammar of that id.  The profile that parsed
the file gives back the very grammar, since it finds the first of its grammars with an id and never
parses with another one of the same id (`grammarById?_grammarForPath`).

    path --grammarForPath--> grammar --id--> file --grammar?--> the same grammar

Another profile is asked by the same key, which may be an extension, an alias or the id of that
profile's language.  It then answers with a grammar of its own, and the file is not refused
(`Profile.GoesBy`, `foreign_grammar_unnoticed`).
-/

namespace CodeAtlas

/-- The failure of a file whose grammar a profile does not have. -/
def Failure.foreignGrammar (grammar : String) (query : QueryName) (language : String) : Failure :=
  .query grammar query.text ("grammar is not part of the " ++ language ++ " profile")

/-! ## Questions about a file -/

def failureOf {α : Type} : Except Failure α → Option Failure
  | .ok _ => none
  | .error e => some e

theorem failureOf_bind {α β : Type} (x : Except Failure α) (g : α → β) :
    failureOf (x >>= fun a => pure (g a)) = failureOf x := by
  cases x <;> rfl

namespace SourceFile

/-- What can be asked about a file with a query. -/
inductive Question where
  | scopes (offset : Nat)
  | hover (offset : Nat)
  | documentation (start : Nat)
  | classes
  | methods
  | signatures
deriving DecidableEq, Repr

def Question.query : Question → QueryName
  | .scopes _ => .scope
  | .hover _ => .hoverable
  | .documentation _ => .docComment
  | .classes => .classes
  | .methods => .methods
  | .signatures => .signature

variable [QueryEngine]

/-- Why a question has no answer. -/
def Question.failure? (f : SourceFile) (p : Profile) : Question → Option Failure
  | .scopes offset => failureOf (f.enclosingScopes p offset)
  | .hover offset => failureOf (f.hoverTarget p offset)
  | .documentation start => failureOf (f.docComment p start)
  | .classes => failureOf (f.classes p)
  | .methods => failureOf (f.methods p)
  | .signatures => failureOf (f.signatures p)

/-- A question fails as its query does. -/
theorem Question.failure?_eq (f : SourceFile) (p : Profile) (question : Question) :
    question.failure? f p = failureOf (f.capturesOf p question.query) := by
  cases question <;> exact failureOf_bind _ _

theorem capturesOf_of_grammar? {f : SourceFile} {p : Profile} {g : Grammar}
    (h : p.grammar? f.grammar = some g) (name : QueryName) :
    f.capturesOf p name = (QueryCache.compile ⟨g, (p.queries.get name).source⟩).map
      fun q => (q.run f.bytes f.root).map (·.captures) := by
  unfold capturesOf grammarIn
  rw [h]
  dsimp only
  cases QueryCache.compile ⟨g, (p.queries.get name).source⟩ <;> rfl

/-! ## The failure for a foreign grammar -/

theorem compile_error {key : QueryKey} {e : Failure} (h : QueryCache.compile key = .error e) :
    ∃ reason, e = .query key.grammar.id key.pattern reason := by
  unfold QueryCache.compile at h
  cases hcompile : Query.compile key.grammar.handle key.pattern with
  | ok q =>
    rw [hcompile] at h
    cases h
  | error reason =>
    rw [hcompile] at h
    cases h
    exact ⟨reason, rfl⟩

theorem compile_of_get_error {c : QueryCache} {key : QueryKey} {e : Failure}
    (h : (c.get key).1 = .error e) : QueryCache.compile key = .error e := by
  unfold QueryCache.get at h
  split at h
  · cases h
  · dsimp only at h
    split at h
    · rename_i hcompile
      cases h
      exact hcompile
    · cases h

/-- Once the grammar is found, structuring fails for the text of the query or for one of its
labels. -/
theorem pattern_of_structured {f : SourceFile} {p : Profile} {g : Grammar} {c : QueryCache}
    {e : Failure} (hg : p.grammar? f.grammar = some g) (h : (f.structured p c).1 = .error e) :
    ∃ pattern reason, e = .query g.id pattern reason ∧
      (pattern = (p.queries.get .structural).source ∨ ∃ label, pattern = "@" ++ label) := by
  have hown : f.grammarIn p .structural = .ok g := by
    unfold grammarIn
    rw [hg]
  rw [structured_eq hown] at h
  unfold structuredBy Profile.labelled at h
  cases hget : (c.get (p.structureKey g)).1 with
  | error e' =>
    rw [hget] at h
    cases h
    obtain ⟨reason, rfl⟩ := compile_error (compile_of_get_error hget)
    exact ⟨_, reason, rfl, Or.inl rfl⟩
  | ok compiled =>
    rw [hget] at h
    dsimp only [Except.map] at h
    rcases Label.checkAll_cases p g.id compiled.query.labels with ⟨label, fault, -, herror⟩ |
      ⟨-, table, hok, -⟩
    · rw [herror] at h
      cases h
      exact ⟨_, _, rfl, Or.inr ⟨label, rfl⟩⟩
    · rw [hok] at h
      cases h

/-- Structuring refuses a file as one of a foreign grammar if and only if the profile has no grammar
for it. -/
theorem structured_foreign_iff {d : Definition} {p : Profile} (hp : p.LoadedFrom d) (f : SourceFile)
    (c : QueryCache) :
    (f.structured p c).1 = .error (.foreignGrammar f.grammar .structural p.id) ↔
      p.grammar? f.grammar = none := by
  cases hg : p.grammar? f.grammar with
  | none =>
    have hforeign : f.grammarIn p .structural =
        .error (.foreignGrammar f.grammar .structural p.id) := by
      unfold grammarIn
      rw [hg]
      rfl
    rw [structured_of_foreign hforeign]
    simp
  | some g =>
    refine iff_of_false (fun h => ?_) (by simp)
    obtain ⟨pattern, reason, heq, hpattern⟩ := pattern_of_structured hg h
    injection heq with _ htext _
    rcases hpattern with rfl | ⟨label, rfl⟩
    · exact (hp.tagged .structural).ne_text .structural htext.symm
    · have hhead := congrArg (fun s : String => s.toList.head?) htext
      simp [QueryName.text] at hhead

theorem question_foreign_iff {d : Definition} {p : Profile} (hp : p.LoadedFrom d) (f : SourceFile)
    (question : Question) :
    question.failure? f p = some (.foreignGrammar f.grammar question.query p.id) ↔
      p.grammar? f.grammar = none := by
  rw [question.failure?_eq]
  cases hg : p.grammar? f.grammar with
  | none =>
    unfold capturesOf grammarIn
    rw [hg]
    exact iff_of_true rfl rfl
  | some g =>
    refine iff_of_false (fun h => ?_) (by simp)
    rw [capturesOf_of_grammar? hg] at h
    cases hcompile : QueryCache.compile ⟨g, (p.queries.get question.query).source⟩ with
    | ok q =>
      rw [hcompile] at h
      cases h
    | error e =>
      obtain ⟨reason, rfl⟩ := compile_error hcompile
      rw [hcompile] at h
      injection h with h
      injection h with _ htext _
      exact (hp.tagged question.query).ne_text question.query htext

/-! ## The profile that parsed the file -/

/-- A profile runs its queries on a file as on one of a grammar: the id in the file leads to the
grammar, every query is compiled for it, and the file is not refused as one of a foreign grammar. -/
structure RunsWith (f : SourceFile) (p : Profile) (g : Grammar) : Prop where
  id : f.grammar = g.id
  found : p.grammar? f.grammar = some g
  structured : ∀ c : QueryCache, c.Reachable →
    (f.structured p c).1 = f.structuredBy p g (QueryCache.compile (p.structureKey g))
  captured : ∀ name, f.capturesOf p name =
    (QueryCache.compile ⟨g, (p.queries.get name).source⟩).map
      fun q => (q.run f.bytes f.root).map (·.captures)
  accepted : ∀ c : QueryCache,
    (f.structured p c).1 ≠ .error (.foreignGrammar f.grammar .structural p.id)
  answered : ∀ question : Question,
    question.failure? f p ≠ some (.foreignGrammar f.grammar question.query p.id)

theorem runsWith_of_found {d : Definition} {p : Profile} (hp : p.LoadedFrom d) {f : SourceFile}
    {g : Grammar} (hid : f.grammar = g.id) (hfound : p.grammar? f.grammar = some g) :
    f.RunsWith p g := by
  have hsome : p.grammar? f.grammar ≠ none := by simp [hfound]
  have hown : f.grammarIn p .structural = .ok g := by
    unfold grammarIn
    rw [hfound]
  refine ⟨hid, hfound, fun c hc => ?_, capturesOf_of_grammar? hfound, fun c h => ?_,
    fun question h => ?_⟩
  · rw [structured_eq hown, hc.answer]
  · exact hsome ((structured_foreign_iff hp f c).mp h)
  · exact hsome ((question_foreign_iff hp f question).mp h)

omit [QueryEngine] in
/-- A file without repairs is the parsed file. -/
theorem eq_parse_of_parseValid {parser : Parser} {p : Profile} {path : String} {bytes : List UInt8}
    {f : SourceFile} (h : parseValid parser p path bytes = .ok f) :
    ∃ root, parser (p.grammarForPath path).handle bytes = .ok root ∧
      f = parse (fun _ _ => root) p path bytes := by
  unfold parseValid at h
  dsimp only at h
  split at h
  · cases h
  · rename_i root hroot
    refine ⟨root, hroot, ?_⟩
    unfold checked at h
    split at h
    · cases h
    · exact (Except.ok.inj h).symm

/-- **A profile finds the grammar of its own files again.**  Its grammars may share ids, and the ids
may be extensions or aliases as well; as long as none starts with a dot, the id that a parsed file
keeps leads to the grammar it was parsed with.  So the queries that run on the file are compiled for
the handle that made its tree, and no file is refused as one of a foreign grammar. -/
theorem grammar_found_again {d : Definition} {p : Profile} (hp : Profile.ofDefinition d = .ok p)
    (hids : ∀ g ∈ d.grammars, g.id.toList.head? ≠ some '.') (path : String) (bytes : List UInt8) :
    p.grammarForPath path ∈ d.grammars ∧
    (∀ tree : Handle → List UInt8 → Node,
      (parse tree p path bytes).RunsWith p (p.grammarForPath path) ∧
      (parse tree p path bytes).root = tree (p.grammarForPath path).handle bytes) ∧
    (∀ (parser : Parser) (f : SourceFile), parseValid parser p path bytes = .ok f →
      f.RunsWith p (p.grammarForPath path) ∧
      parser (p.grammarForPath path).handle bytes = .ok f.root) := by
  have hloaded := Profile.loadedFrom_of_ofDefinition hp
  have hfirst := Profile.grammarById?_grammarForPath hloaded path
  have hmem : p.grammarForPath path ∈ d.grammars := by
    rw [← hloaded.grammars]
    exact (Profile.grammarById?_some hfirst).1
  have hfound := Profile.grammar?_of_grammarById? hfirst (hids _ hmem)
  have hruns : ∀ tree, (parse tree p path bytes).RunsWith p (p.grammarForPath path) :=
    fun tree => runsWith_of_found hloaded rfl hfound
  refine ⟨hmem, fun tree => ⟨hruns tree, rfl⟩, fun parser f hf => ?_⟩
  obtain ⟨root, hroot, rfl⟩ := eq_parse_of_parseValid hf
  exact ⟨hruns _, hroot⟩

end SourceFile

/-- Two grammars under one id, which an extension selects, and a third under an alias. -/
def Definition.crowded : Definition :=
  { Definition.typescript.withoutPatterns with
    aliases := ["jsx"]
    grammars := [⟨"ts", .typescript⟩, ⟨"jsx", .tsx⟩, ⟨"jsx", .javascript⟩]
    extensionGrammars := [("tsx", "jsx")] }

theorem SourceFile.grammar_found_again_crowded :
    (∀ g ∈ Definition.crowded.grammars, g.id.toList.head? ≠ some '.') ∧
    ∃ p, Profile.ofDefinition .crowded = .ok p ∧
      ∀ tree, (parse tree p "App.TSX" []).RunsWith p ⟨"jsx", .tsx⟩ := by
  have hids : ∀ g ∈ Definition.crowded.grammars, g.id.toList.head? ≠ some '.' := by decide
  have hmap : (Profile.ofDefinition .crowded).map (·.grammarForPath "App.TSX") =
      .ok ⟨"jsx", .tsx⟩ := by cbv
  obtain ⟨p, hp, hpath⟩ := exists_of_map_ok hmap
  obtain ⟨-, hruns, -⟩ := grammar_found_again hp hids "App.TSX" []
  rw [hpath] at hruns
  exact ⟨hids, p, hp, fun tree => (hruns tree).1⟩

/-! ## Another profile -/

namespace Profile

/-- A profile takes a file of a grammar that it does not have for one of its own. -/
def Mistakes (p : Profile) (grammar : String) : Prop :=
  ∃ g, p.grammar? grammar = some g ∧ g.id ≠ grammar

theorem mistakes_iff {d : Definition} {p : Profile} (hp : p.LoadedFrom d) {grammar : String}
    (hdot : grammar.toList.head? ≠ some '.') :
    p.Mistakes grammar ↔ (∀ g ∈ p.grammars, g.id ≠ grammar) ∧ p.GoesBy grammar := by
  have hanswers := answers_grammar? hp grammar
  rw [bareKey_of_undotted hdot] at hanswers
  constructor
  · rintro ⟨g, hg, hne⟩
    rw [hg] at hanswers
    have hother : ∀ g ∈ p.grammars, g.id ≠ grammar := fun g' hg' hid =>
      hne (hanswers.id_eq_iff.mpr ⟨g', hg', hid⟩)
    refine ⟨hother, ?_⟩
    by_contra hname
    exact absurd (hanswers.eq_none_iff.mpr ⟨hother, hname⟩) (by simp)
  · rintro ⟨hother, hname⟩
    cases hg : p.grammar? grammar with
    | none =>
      rw [hg] at hanswers
      exact absurd hname (hanswers.eq_none_iff.mp rfl).2
    | some g =>
      rw [hg] at hanswers
      exact ⟨g, hg, hother g (grammarById?_some hanswers.grammarById?).1⟩

end Profile

namespace SourceFile

/-- **When a foreign grammar is noticed.**  A file that may have been parsed with any other profile
is refused, by structuring and by every question alike, if and only if the id of its grammar is
neither that of one of the profile's grammars nor another name of its language.  The profile takes
the file for one of another grammar if and only if it has no grammar of the id but goes by it: as an
extension, an alias or the id of the language. -/
theorem foreign_grammar_noticed_iff [QueryEngine] {d : Definition} {q : Profile}
    (hq : Profile.ofDefinition d = .ok q) (f : SourceFile)
    (hdot : f.grammar.toList.head? ≠ some '.') :
    (∀ c : QueryCache, (f.structured q c).1 = .error (.foreignGrammar f.grammar .structural q.id) ↔
      (∀ g ∈ q.grammars, g.id ≠ f.grammar) ∧ ¬ q.GoesBy f.grammar) ∧
    (∀ question : Question,
      question.failure? f q = some (.foreignGrammar f.grammar question.query q.id) ↔
        (∀ g ∈ q.grammars, g.id ≠ f.grammar) ∧ ¬ q.GoesBy f.grammar) ∧
    (q.Mistakes f.grammar ↔ (∀ g ∈ q.grammars, g.id ≠ f.grammar) ∧ q.GoesBy f.grammar) := by
  have hloaded := Profile.loadedFrom_of_ofDefinition hq
  have hnone := (Profile.answers_grammar? hloaded f.grammar).eq_none_iff
  rw [Profile.bareKey_of_undotted hdot] at hnone
  refine ⟨fun c => ?_, fun question => ?_, Profile.mistakes_iff hloaded hdot⟩
  · exact (structured_foreign_iff hloaded f c).trans hnone
  · exact (question_foreign_iff hloaded f question).trans hnone

end SourceFile

def Node.emptyProgram : Node :=
  .node { (default : NodeInfo) with kind := "program", named := true } []

/-- TypeScript without the grammar for JSX elements, which still has the extension `tsx`. -/
def Definition.plainTypescript : Definition :=
  { Definition.typescript.withoutPatterns with
    grammars := [.ofHandle .typescript]
    extensionGrammars := [] }

namespace SourceFile

theorem foreign_grammar_noticed_iff_go :
    ∃ go, Profile.ofDefinition Definition.go.withoutPatterns = .ok go ∧
      (emptyNote.structured go .empty).1 =
        .error (.foreignGrammar "python" .structural go.id) ∧
      ¬ go.Mistakes "python" := by
  have hmap : (Profile.ofDefinition Definition.go.withoutPatterns).map (·.id) = .ok "go" := by cbv
  obtain ⟨go, hgo, -⟩ := exists_of_map_ok hmap
  have hloaded := Profile.loadedFrom_of_ofDefinition hgo
  have hids : ∀ g ∈ go.grammars, g.id ≠ "python" := by
    rw [hloaded.grammars]
    decide
  have hname : ¬ go.GoesBy "python" := by
    unfold Profile.GoesBy
    rw [hloaded.table, hloaded.extensions, hloaded.id, hloaded.aliases]
    decide
  obtain ⟨hstructured, -, hmistakes⟩ := foreign_grammar_noticed_iff hgo emptyNote (by decide)
  exact ⟨go, hgo, (hstructured _).mpr ⟨hids, hname⟩, fun h => hname (hmistakes.mp h).2⟩

/-- TypeScript parses a file with its grammar for JSX elements.  A profile without that grammar runs
a query that was compiled for another handle on the tree, and neither structuring nor a question
says that the grammar is foreign. -/
theorem foreign_grammar_unnoticed : ∃ p q f,
    Profile.ofDefinition Definition.typescript.withoutPatterns = .ok p ∧
    Profile.ofDefinition .plainTypescript = .ok q ∧
    f = parse (fun _ _ => Node.emptyProgram) p "App.tsx" [] ∧
    p.grammarForPath "App.tsx" = ⟨"tsx", .tsx⟩ ∧
    q.grammar? f.grammar = some ⟨"typescript", .typescript⟩ ∧
    (f.structured q .empty).1 = .ok [] ∧
    ∀ question : Question,
      question.failure? f q ≠ some (.foreignGrammar f.grammar question.query q.id) := by
  have hmap : (Profile.ofDefinition Definition.typescript.withoutPatterns).map
      (·.grammarForPath "App.tsx") = .ok ⟨"tsx", .tsx⟩ := by cbv
  have hmap' : (Profile.ofDefinition .plainTypescript).map
      (fun q => (q.grammar? "tsx", (q.queries.get .structural).source)) =
        .ok (some ⟨"typescript", .typescript⟩, "; language: typescript\n; version: 1\n") := by cbv
  obtain ⟨p, hp, hpath⟩ := exists_of_map_ok hmap
  obtain ⟨q, hq, hboth⟩ := exists_of_map_ok hmap'
  obtain ⟨hfound, hsource⟩ := Prod.mk.inj hboth
  have hgrammar : (parse (fun _ _ => Node.emptyProgram) p "App.tsx" []).grammar = "tsx" :=
    congrArg Grammar.id hpath
  refine ⟨p, q, _, hp, hq, rfl, hpath, by rw [hgrammar, hfound], ?_, fun question h => ?_⟩
  · have hcompile : QueryCache.compile ⟨⟨"typescript", .typescript⟩,
        "; language: typescript\n; version: 1\n"⟩ = .ok (⟨[], []⟩ : TreeQuery) := by cbv
    rw [structured_fst _ q QueryCache.reachable_empty, hgrammar]
    unfold Profile.fitted Profile.structureKey
    rw [hfound, hsource]
    dsimp only
    rw [hcompile]
    have hrun : ∀ bytes root, Query.run (⟨[], []⟩ : TreeQuery) bytes root = [] := fun _ _ =>
      List.flatMap_eq_nil_iff.mpr fun _ _ => rfl
    show Except.ok (entitiesOf _ [] (⟨[], []⟩ : TreeQuery)) = Except.ok []
    unfold entitiesOf
    rw [hrun, List.filterMap_nil, Forest.assemble, Forest.survivors, List.mergeSort_nil]
    rfl
  · have hnone := (question_foreign_iff (Profile.loadedFrom_of_ofDefinition hq) _ question).mp h
    rw [hgrammar, hfound] at hnone
    cases hnone

end SourceFile

end CodeAtlas
