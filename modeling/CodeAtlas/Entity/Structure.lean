import CodeAtlas.Entity.Forest
import CodeAtlas.Entity.Label
import CodeAtlas.Query.Cache

/-!
Structuring: the entities of a source file.  The profile's structure query is compiled for the
grammar of the file and all its labels are checked before anything is matched, so a faulty query
fails every file.

An analyzer may have another way to structure files.  A `Structurer` asks for one compiled query at
most, and `Structurer.query` is the one that does what `SourceFile.structured` does.
-/

namespace CodeAtlas

variable [QueryEngine]

namespace SourceFile

/-- The grammar of a profile that belongs to the file's tree. -/
def grammarIn (f : SourceFile) (p : Profile) (query : QueryName) : Except Failure Grammar :=
  match p.grammar? f.grammar with
  | some g => .ok g
  | none =>
    .error (.query f.grammar query.text ("grammar is not part of the " ++ p.id ++ " profile"))

def entitiesOf (f : SourceFile) (table : List (String × Label)) (q : Query) : List Entity :=
  Forest.assemble ((q.run f.bytes f.root).filterMap (Candidate.ofMatch? f table))

/-- The entities of a file for a profile, with the cache after it. -/
def structured (f : SourceFile) (p : Profile) (cache : QueryCache) :
    Except Failure (List Entity) × QueryCache :=
  match f.grammarIn p .structural with
  | .error e => (.error e, cache)
  | .ok g =>
    match cache.get ⟨g, (p.queries.get .structural).source⟩ with
    | (.error e, cache) => (.error e, cache)
    | (.ok compiled, cache) =>
      match Label.checkAll p g.id compiled.query.labels with
      | .error e => (.error e, cache)
      | .ok table => (.ok (f.entitiesOf table compiled.query), cache)

end SourceFile

/-! ## Structurers -/

def Profile.structureKey (p : Profile) (g : Grammar) : QueryKey :=
  ⟨g, (p.queries.get .structural).source⟩

/-- The meanings of the labels of a compiled structure query, together with the query. -/
def Profile.labelled (p : Profile) (g : Grammar) :
    Except Failure Query → Except Failure (List (String × Label) × Query)
  | .error e => .error e
  | .ok q => (Label.checkAll p g.id q.labels).map fun table => (table, q)

/-- The entities of a file, from the compiled structure query or the failure to compile it. -/
def SourceFile.structuredBy (f : SourceFile) (p : Profile) (g : Grammar)
    (answer : Except Failure Query) : Except Failure (List Entity) :=
  (p.labelled g answer).map fun fit => f.entitiesOf fit.1 fit.2

/-- The work of a structurer on a file, up to the request that it makes of the cache. -/
inductive Structuring where
  /-- No query is needed. -/
  | ended (result : Except Failure (List Entity))
  /-- The compiled query of a key is needed, and the work goes on from the answer. -/
  | asks (key : QueryKey) (resume : Except Failure Query → Except Failure (List Entity))

/-- The work in one go, with the cache after it. -/
def Structuring.through (cache : QueryCache) :
    Structuring → Except Failure (List Entity) × QueryCache
  | .ended result => (result, cache)
  | .asks key resume => (resume ((cache.get key).1.map fun q => q.query), (cache.get key).2)

/-- A way to structure files. -/
abbrev Structurer := Profile → SourceFile → Structuring

/-- Structures a file by the structure query of its profile. -/
def Structurer.query : Structurer := fun p f =>
  match f.grammarIn p .structural with
  | .error e => .ended (.error e)
  | .ok g => .asks (p.structureKey g) (f.structuredBy p g)

end CodeAtlas
