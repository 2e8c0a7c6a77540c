import CodeAtlas.Entity.Basic
import CodeAtlas.Failure

/-!
The report on one file: its language, its entities, and what went wrong.  Work on a file moves from
pending over parsed and structured to done, or to failed from any of them; a failed file keeps no
entities.
-/

namespace CodeAtlas

/-- How far the work on a file came. -/
inductive FileState where
  | pending
  | parsed
  | structured
  | done
  | failed
deriving DecidableEq, Repr, Inhabited

namespace FileState

def all : List FileState := [.pending, .parsed, .structured, .done, .failed]

def name : FileState → String
  | .pending => "pending"
  | .parsed => "parsed"
  | .structured => "structured"
  | .done => "done"
  | .failed => "failed"

def ofName? (s : String) : Option FileState :=
  all.find? (fun st => st.name == s)

def isTerminal : FileState → Bool
  | .done | .failed => true
  | _ => false

theorem ofName?_name (s : FileState) : ofName? s.name = some s := by
  cases s <;> decide

end FileState

/-- The report on one file. -/
structure FileReport where
  /-- The path below the scanned directory, with slashes. -/
  path : String
  /-- The id of the language, if some profile has the file's extension. -/
  language : Option String
  isTest : Bool
  state : FileState
  entities : List Entity
  errors : List FileError
deriving Repr, BEq, Inhabited

namespace FileReport

/-- The report on a file before any work. -/
def start (path : String) (language : Option String) : FileReport :=
  ⟨path, language, false, .pending, [], []⟩

/-- The report after a failure. -/
def fail (r : FileReport) (e : FileError) : FileReport :=
  { r with entities := [], errors := r.errors ++ [e], state := .failed }

def isFailed (r : FileReport) : Bool :=
  r.state == .failed

def walk (r : FileReport) : List Entity :=
  Entity.walk r.entities

/-- The number of entities, nested ones included. -/
def entityCount (r : FileReport) : Nat :=
  r.walk.length

def find? (r : FileReport) (kind : Kind) (name : String) : Option Entity :=
  Entity.find? kind name r.entities

def findById? (r : FileReport) (id : EntityId) : Option Entity :=
  Entity.findById? id r.entities

end FileReport

end CodeAtlas
