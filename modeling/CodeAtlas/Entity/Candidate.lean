import CodeAtlas.Entity.Basic
import CodeAtlas.Text.Annotation

/-!
Candidates: entities that a query found, before they are nested.  `Candidate.precedes` orders them by
where they start, longer ones first, then by the clause that found them.
-/

namespace CodeAtlas

/-- An entity without a place in the forest. -/
structure Candidate where
  kind : Kind
  /-- The index of the query clause that found it. -/
  clause : Nat
  span : Span
  name : Option String
  declaredType : Option String
  returnType : Option String
  references : List String
deriving DecidableEq, Repr, Inhabited

namespace Candidate

/-- The facts of the entity that a candidate becomes. -/
def facts (c : Candidate) (id : EntityId) : Facts where
  id := id
  kind := c.kind
  name := c.name.getD ""
  declaredType := c.declaredType
  returnType := c.returnType
  reference := if c.references.isEmpty then none else some (Text.join ", " c.references)
  parent := none
  span := c.span

/-- Earlier start first, then later end, then earlier clause. -/
def precedes (a b : Candidate) : Bool :=
  if a.span.startByte = b.span.startByte then
    if a.span.endByte = b.span.endByte then a.clause ≤ b.clause
    else b.span.endByte < a.span.endByte
  else a.span.startByte < b.span.startByte

def sameRange (a b : Candidate) : Bool :=
  a.span.sameRange b.span

theorem precedes_iff (a b : Candidate) :
    a.precedes b = true ↔
      a.span.startByte < b.span.startByte ∨
        (a.span.startByte = b.span.startByte ∧
          (b.span.endByte < a.span.endByte ∨
            (a.span.endByte = b.span.endByte ∧ a.clause ≤ b.clause))) := by
  unfold precedes
  split
  · split <;> simp <;> omega
  · simp; omega

theorem precedes_total (a b : Candidate) : (a.precedes b || b.precedes a) = true := by
  rw [Bool.or_eq_true, precedes_iff, precedes_iff]
  omega

theorem precedes_trans (a b c : Candidate) (h₁ : a.precedes b = true) (h₂ : b.precedes c = true) :
    a.precedes c = true := by
  rw [precedes_iff] at *
  omega

end Candidate

end CodeAtlas
