import CodeAtlas.Entity.Candidate
import CodeAtlas.ListRuns

/-!
Forests of entities.  Candidates are put in order, all but the first of those with the same bytes are
dropped, and each one adopts the trees right after it that lie within it.  Ids number the entities in
that order, which is also the order of the preorder of the forest.
-/

namespace CodeAtlas

namespace Forest

/-- The candidates that become entities, in order. -/
def survivors (candidates : List Candidate) : List Candidate :=
  firstOfRuns Candidate.sameRange (candidates.mergeSort Candidate.precedes)

/-- Puts a candidate in front of the trees that follow it: the leading ones that lie within it become
its children. -/
def adopt (c : Candidate × Nat) (following : List Entity) : List Entity :=
  let id := EntityId.ofIndex c.2
  let within (e : Entity) : Bool := c.1.span.contains e.facts.span
  .entity (c.1.facts id) ((following.takeWhile within).map (Entity.ownedBy id)) ::
    following.dropWhile within

/-- The forest of candidates that are already in order. -/
def nest (ordered : List Candidate) : List Entity :=
  ordered.zipIdx.foldr adopt []

/-- The forest of any candidates. -/
def assemble (candidates : List Candidate) : List Entity :=
  nest (survivors candidates)

end Forest

end CodeAtlas
