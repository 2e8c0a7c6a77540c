import CodeAtlas.Report.Scan

/-!
Flat records: one row for each entity, with its file and the names around it.
-/

namespace CodeAtlas

/-- One entity as a row. -/
structure FlatRecord where
  file : String
  language : String
  kind : Kind
  name : String
  /-- The names of the entities around it and its own, with `::` between two. -/
  qualifiedName : String
  declaredType : Option String
  returnType : Option String
  reference : Option String
  line : Nat
  parent : Option EntityId
deriving DecidableEq, Repr, Inhabited

namespace FlatRecord

/-- The text between two names of a qualified name. -/
def separator : String := "::"

/-- The qualified name of an entity from that of the entity around it.  An entity without a name
has the name of what is around it. -/
def qualify (outer : Option String) (name : String) : String :=
  match outer with
  | some q => if name.isEmpty then q else q ++ separator ++ name
  | none => name

def ofFacts (file language qualifiedName : String) (f : Facts) : FlatRecord :=
  ⟨file, language, f.kind, f.name, qualifiedName, f.declaredType, f.returnType, f.reference,
    f.span.startLine, f.parent⟩

mutual

/-- The rows of an entity and everything below it, parents first. -/
def ofEntity (file language : String) (outer : Option String) : Entity → List FlatRecord
  | .entity f cs =>
    let q := qualify outer f.name
    ofFacts file language q f :: ofEntities file language (some q) cs

def ofEntities (file language : String) (outer : Option String) : List Entity → List FlatRecord
  | [] => []
  | e :: es => ofEntity file language outer e ++ ofEntities file language outer es

end

/-- The rows of a file; a file without a language has none. -/
def ofFile (r : FileReport) : List FlatRecord :=
  match r.language with
  | some language => ofEntities r.path language none r.entities
  | none => []

end FlatRecord

namespace ScanReport

def flatten (r : ScanReport) : List FlatRecord :=
  r.files.flatMap FlatRecord.ofFile

end ScanReport

end CodeAtlas
