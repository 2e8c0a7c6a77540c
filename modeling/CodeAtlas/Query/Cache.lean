import CodeAtlas.Failure
import CodeAtlas.Query.Engine

/-!
The cache of compiled queries.  A query is compiled once for a grammar id, handle and text, and the
same compiled object is handed out from then on.  A text that does not compile is stored nowhere, so
every request for it is a miss.  `get` is made of three steps that stand on their own: `lookup?`,
compilation, and `insert`, which keeps what is already stored.
-/

namespace CodeAtlas

/-- What a compiled query belongs to. -/
structure QueryKey where
  grammar : Grammar
  pattern : String
deriving DecidableEq, Repr, Inhabited

/-- A compiled query; `serial` tells one compilation from another. -/
structure Compiled [QueryEngine] where
  serial : Nat
  query : Query

/-- Compiled queries by key, with counts of what happened. -/
structure QueryCache [QueryEngine] where
  entries : List (QueryKey × Compiled)
  hits : Nat
  misses : Nat
  /-- Compilations that succeeded. -/
  compiles : Nat
deriving Inhabited

/-- What a cache tells about itself.  Its counters have 64 bits and start again at zero. -/
structure CacheStats where
  entries : Nat
  hits : UInt64
  misses : UInt64
  compiles : UInt64
deriving DecidableEq, Repr

namespace QueryCache

variable [QueryEngine]

def empty : QueryCache := ⟨[], 0, 0, 0⟩

def lookup? (c : QueryCache) (key : QueryKey) : Option Compiled :=
  (c.entries.find? (fun e => e.1 == key)).map (·.2)

/-- Stores a query under a key that has none, and gives the stored one. -/
def insert (c : QueryCache) (key : QueryKey) (q : Compiled) : Compiled × QueryCache :=
  match c.lookup? key with
  | some stored => (stored, c)
  | none => (q, { c with entries := c.entries ++ [(key, q)] })

/-- Compiles a query; a failure names the grammar and the text. -/
def compile (key : QueryKey) : Except Failure Query :=
  (Query.compile key.grammar.handle key.pattern).mapError
    (fun reason => .query key.grammar.id key.pattern reason)

/-- The compiled query of a key, from the cache or compiled now. -/
def get (c : QueryCache) (key : QueryKey) : Except Failure Compiled × QueryCache :=
  match c.lookup? key with
  | some q => (.ok q, { c with hits := c.hits + 1 })
  | none =>
    let missed := { c with misses := c.misses + 1 }
    match compile key with
    | .error f => (.error f, missed)
    | .ok q =>
      let (stored, next) :=
        { missed with compiles := missed.compiles + 1 }.insert key ⟨c.compiles, q⟩
      (.ok stored, next)

def size (c : QueryCache) : Nat :=
  c.entries.length

def stats (c : QueryCache) : CacheStats :=
  ⟨c.size, c.hits.toUInt64, c.misses.toUInt64, c.compiles.toUInt64⟩

end QueryCache

end CodeAtlas
