import CodeAtlas.Proofs.Profile.Loading
import CodeAtlas.Proofs.Structure.Faults
import CodeAtlas.Proofs.Text.BaseList

/-!
References of entities.  An entity refers to the bases of all the heritage texts that a match
captured for it, joined:

    captures of a match  →  reference texts  →  bases of each text  →  reference

A reference is a list of bases if and only if in each of the texts every item names one, or the text
gives nothing at all (`reference_lists_bases_iff`).
-/

namespace CodeAtlas

/-- The texts that captures give as references to an entity of a kind. -/
def SourceFile.referenceTexts (f : SourceFile) (table : List (String × Label)) (kind : Kind)
    (captures : Captures) : List String :=
  captures.filterMap fun capture =>
    if meaning? table capture.1 = some ⟨kind, some .reference⟩ then
      some (f.nodeText capture.2.info)
    else none

namespace Candidate

open Text

theorem addText_references (c : Candidate) (role : Role) (text : String) :
    (c.addText role text).references =
      c.references ++ if role = .reference then (bases? text).toList else [] := by
  cases role with
  | name => by_cases h : c.name.isSome = true <;> simp [addText, h]
  | type => simp [addText]
  | result => simp [addText]
  | reference => simp [addText]

theorem addCapture_references (f : SourceFile) (table : List (String × Label)) (c : Candidate)
    (capture : String × Node) :
    (c.addCapture f table capture).references =
      c.references ++ (f.referenceTexts table c.kind [capture]).filterMap bases? := by
  unfold addCapture
  split
  · rename_i kind role hmeaning
    by_cases hkind : kind = c.kind
    · rw [if_pos hkind, addText_references]
      by_cases hrole : role = .reference
      · cases hbases : bases? (f.nodeText capture.2.info) <;>
          simp [SourceFile.referenceTexts, hmeaning, hkind, hrole, hbases]
      · simp [SourceFile.referenceTexts, hmeaning, hrole]
    · simp [SourceFile.referenceTexts, hmeaning, hkind]
  · rename_i hother
    have hno : meaning? table capture.1 ≠ some ⟨c.kind, some .reference⟩ := hother c.kind .reference
    simp [SourceFile.referenceTexts, hno]

theorem foldl_addCapture_references (f : SourceFile) (table : List (String × Label)) (c : Candidate)
    (captures : Captures) :
    (captures.foldl (addCapture f table) c).references =
      c.references ++ (f.referenceTexts table c.kind captures).filterMap bases? := by
  induction captures generalizing c with
  | nil => simp [SourceFile.referenceTexts]
  | cons capture rest ih =>
    have hsplit : f.referenceTexts table c.kind (capture :: rest) =
        f.referenceTexts table c.kind [capture] ++ f.referenceTexts table c.kind rest :=
      List.filterMap_append (l := [capture])
    rw [List.foldl_cons, ih, addCapture_references, (addCapture_keeps f table c capture).1, hsplit,
      List.filterMap_append, List.append_assoc]

theorem references_of_ofMatch? {f : SourceFile} {table : List (String × Label)} {m : QueryMatch}
    {c : Candidate} (h : ofMatch? f table m = some c) :
    c.references = (f.referenceTexts table c.kind m.captures).filterMap bases? := by
  unfold ofMatch? at h
  split at h
  · cases h
  · rename_i kind node hmarked
    dsimp only at h
    split at h
    · cases h
    · cases h
      rw [(foldl_addCapture_keeps f table _ m.captures).1, foldl_addCapture_references]
      rfl

end Candidate

namespace SourceFile

open Text

theorem reference_of_entitiesOf [QueryEngine] {f : SourceFile} {table : List (String × Label)}
    {q : Query} {e : Entity} (h : e ∈ Entity.walk (f.entitiesOf table q)) :
    ∃ m ∈ q.run f.bytes f.root, e.facts.reference =
      if (f.referenceTexts table e.facts.kind m.captures).filterMap bases? = [] then none
      else some (join ", " ((f.referenceTexts table e.facts.kind m.captures).filterMap bases?)) := by
  obtain ⟨c, hc, hsaid⟩ := Forest.exists_saidBy h
  obtain ⟨m, hm, hmatch⟩ := List.mem_filterMap.mp hc
  refine ⟨m, hm, ?_⟩
  rw [hsaid.reference, hsaid.kind, Candidate.references_of_ofMatch? hmatch]
  rfl

/-- **When a reference is a list of bases.**  A heritage text gives nothing if and only if it has one
item and this item names no base.  Otherwise it gives what its items give, each of it collapsed and
without a comma, and this is a list of bases if and only if all items name one.  Structure any file
with any profile, whatever the cache went through: each entity comes from a match, has no reference
if and only if all the reference texts of the match give nothing, and has a list of bases as its
reference if and only if in each text that gives something all items name one. -/
theorem reference_lists_bases_iff [QueryEngine] (f : SourceFile) (p : Profile) {c : QueryCache}
    (hc : c.Reachable) :
    (∀ s, (bases? s = none ↔ ∃ item, heritageItems s = [item] ∧ ¬ NamesBase item) ∧
      ∀ r, bases? s = some r →
        r.toList = ", ".toList.intercalate (heritageBases s) ∧
        (∀ b ∈ heritageBases s, Collapsed b ∧ ',' ∉ b) ∧
        (IsBaseList r ↔ ∀ item ∈ heritageItems s, NamesBase item)) ∧
    (∀ entities, (f.structured p c).1 = .ok entities → ∀ e ∈ Entity.walk entities,
      ∃ table q m texts, p.fitted f.grammar = .ok (table, q) ∧ m ∈ q.run f.bytes f.root ∧
        texts = f.referenceTexts table e.facts.kind m.captures ∧
        (e.facts.reference = none ↔ ∀ t ∈ texts, bases? t = none) ∧
        ∀ r, e.facts.reference = some r →
          r = join ", " (texts.filterMap bases?) ∧
          (IsBaseList r ↔
            ∀ t ∈ texts, bases? t = none ∨ ∀ item ∈ heritageItems t, NamesBase item)) := by
  refine ⟨fun s => ⟨bases?_eq_none_iff s, fun r hr => ?_⟩, ?_⟩
  · exact ⟨toList_of_bases? hr, fun b => collapsed_of_mem_heritageBases, isBaseList_bases?_iff hr⟩
  · intro entities hentities e he
    obtain ⟨table, q, hfit, rfl⟩ := (structured_ok_iff f p hc entities).mp hentities
    obtain ⟨m, hm, hreference⟩ := reference_of_entitiesOf he
    refine ⟨table, q, m, _, hfit, hm, rfl, ?_⟩
    rw [hreference]
    constructor
    · rw [ite_eq_left_iff, ← List.filterMap_eq_nil_iff]
      simp only [reduceCtorEq, imp_false, not_not]
    · intro r hr
      split at hr
      · cases hr
      · rename_i hne
        cases hr
        exact ⟨rfl, isBaseList_join_iff hne⟩

end SourceFile

/-- A language whose structure query finds classes and their bases. -/
def Profile.classes : Profile where
  id := "notes"
  aliases := []
  extensions := ["txt"]
  defaultGrammar := .ofHandle .python
  otherGrammars := []
  extensionGrammars := []
  testRule := .anyOf []
  queries := ⟨fun name => ⟨name, "notes", 1,
    "(class_definition superclasses: (argument_list) @class.ref) @class"⟩⟩
  taxonomy := ⟨[⟨"types", [.classDecl]⟩]⟩
  builtinTypes := []
  autoSelect := []

def SourceFile.classOf (bases : String) : SourceFile :=
  let size := (Text.Utf8.encode bases).length
  let info (kind : String) (start : Nat) (field : Option String) : NodeInfo :=
    { (default : NodeInfo) with
      kind := kind, startByte := start, endByte := 7 + size, named := true, field := field }
  ⟨"a.txt", "notes", "python", Text.Utf8.encode ("class C" ++ bases),
    .node (info "module" 0 none) [.node (info "class_definition" 0 none)
      [.node (info "argument_list" 7 "superclasses") []]]⟩

def SourceFile.classReferences (bases : String) : Except Failure (List (Option String)) :=
  ((classOf bases).structured .classes .empty).1.map fun entities =>
    (Entity.walk entities).map fun e => e.facts.reference

namespace SourceFile

open Text

theorem reference_lists_bases_iff_mixin :
    QueryCache.empty.Reachable ∧ IsBaseList "Base, Mixin" ∧
    ∃ entities, ((classOf "( Base, public Mixin )").structured .classes .empty).1 = .ok entities ∧
      ∃ e ∈ Entity.walk entities, e.facts.reference = some "Base, Mixin" ∧
        ∃ texts : List String, "Base, Mixin" = join ", " (texts.filterMap bases?) ∧
          ∀ t ∈ texts, bases? t = none ∨ ∀ item ∈ heritageItems t, NamesBase item := by
  have hreachable := QueryCache.reachable_empty
  have hreferences : classReferences "( Base, public Mixin )" = .ok [some "Base, Mixin"] := by
    decide +kernel
  obtain ⟨htext, hentity⟩ :=
    reference_lists_bases_iff (classOf "( Base, public Mixin )") .classes hreachable
  have hlist : IsBaseList "Base, Mixin" :=
    ((htext "( Base, public Mixin )").2 "Base, Mixin" (by decide)).2.2.mpr (by decide)
  obtain ⟨entities, hok, hwalk⟩ := exists_of_map_ok hreferences
  obtain ⟨e, he, hreference⟩ := List.mem_map.mp (hwalk ▸ List.mem_cons_self)
  obtain ⟨_, _, _, texts, -, -, -, -, hr⟩ := hentity entities hok e he
  obtain ⟨hjoin, hiff⟩ := hr _ hreference
  exact ⟨hreachable, hlist, entities, hok, e, he, hreference, texts, hjoin, hiff.mp hlist⟩

/-- A comma before the closing parenthesis ends an item and starts an empty one, and the reference
ends with a comma and a space. -/
theorem trailing_comma_adds_empty_base :
    bases? "( Base, Mixin, )" = some "Base, Mixin, " ∧
    classReferences "( Base, Mixin, )" = .ok [some "Base, Mixin, "] ∧
    ¬ IsBaseList "Base, Mixin, " := by
  have hbases : bases? "( Base, Mixin, )" = some "Base, Mixin, " := by decide
  refine ⟨hbases, by decide +kernel, ?_⟩
  rw [isBaseList_bases?_iff hbases]
  decide

end SourceFile

end CodeAtlas
