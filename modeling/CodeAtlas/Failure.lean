import CodeAtlas.Span
import CodeAtlas.Text.Quoted

/-!
Why a file could not be structured.  A failure ends the work on one file and never on another; its
record in a result keeps the category, the message and, for faults of the source text, the place.
-/

namespace CodeAtlas

/-- The category of a failure. -/
inductive FailureKind where
  | unsupportedLanguage
  | parse
  | query
  | io
deriving DecidableEq, Repr, Inhabited

namespace FailureKind

def all : List FailureKind := [.unsupportedLanguage, .parse, .query, .io]

def name : FailureKind → String
  | .unsupportedLanguage => "unsupported_language"
  | .parse => "parse_error"
  | .query => "query_compilation_error"
  | .io => "io_error"

def ofName? (s : String) : Option FailureKind :=
  all.find? (fun k => k.name == s)

theorem ofName?_name (k : FailureKind) : ofName? k.name = some k := by
  cases k <;> decide

end FailureKind

/-- Why a file could not be structured. -/
inductive Failure where
  /-- No profile has the file's extension. -/
  | unsupported (path extension : String)
  /-- The source text has a fault. -/
  | parse (path reason : String) (location : Option Location)
  /-- A query does not compile for a grammar, or captures something it must not. -/
  | query (grammar pattern reason : String)
  /-- The file cannot be read. -/
  | io (path reason : String)
deriving DecidableEq, Repr, Inhabited

namespace Failure

def kind : Failure → FailureKind
  | .unsupported _ _ => .unsupportedLanguage
  | .parse _ _ _ => .parse
  | .query _ _ _ => .query
  | .io _ _ => .io

def message : Failure → String
  | .unsupported path extension =>
    "no language profile registered for " ++ path ++ " (extension " ++ Text.quoted extension ++ ")"
  | .parse path reason _ => "failed to parse " ++ path ++ ": " ++ reason
  | .query grammar _ reason => "query failed to compile for grammar " ++ grammar ++ ": " ++ reason
  | .io path reason => "failed to read " ++ path ++ ": " ++ reason

def location? : Failure → Option Location
  | .parse _ _ location => location
  | _ => none

end Failure

/-- A failure as results record it. -/
structure FileError where
  kind : FailureKind
  message : String
  location : Option Location
deriving DecidableEq, Repr, Inhabited

def Failure.toError (f : Failure) : FileError :=
  ⟨f.kind, f.message, f.location?⟩

end CodeAtlas
