import CodeAtlas.Query.Matches
import CodeAtlas.Query.Reader

/-!
An engine that reads queries and searches trees itself.  It knows the part of the query language that
the built-in profiles are written in.
-/

namespace CodeAtlas

/-- Queries are read once and then matched against each tree. -/
instance QueryEngine.interpreter : QueryEngine where
  Code := TreeQuery
  compile := TreeQuery.compile
  labels := TreeQuery.labels
  run := TreeQuery.run

end CodeAtlas
