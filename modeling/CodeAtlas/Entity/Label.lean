import CodeAtlas.Entity.Candidate
import CodeAtlas.Source

/-!
Capture labels of structure queries.  `@kind` marks a node that becomes an entity, and `@kind.name`,
`@kind.type`, `@kind.return` and `@kind.ref` give it texts.  Labels that start with an underscore are
for predicates only.
-/

namespace CodeAtlas

/-- What a captured text is to its entity. -/
inductive Role where
  | name
  | type
  | result
  | reference
deriving DecidableEq, Repr, Inhabited

/-- The meaning of a capture label; without a role it marks the entity itself. -/
structure Label where
  kind : Kind
  role : Option Role
deriving DecidableEq, Repr, Inhabited

/-- What is wrong with a capture label. -/
inductive LabelFault where
  | unknownKind (label kind : String)
  | unknownRole (label role : String)
  /-- The language of the profile does not declare the kind. -/
  | foreignKind (kind : Kind) (language : String)
deriving DecidableEq, Repr

namespace LabelFault

def message : LabelFault → String
  | .unknownKind label kind => "capture @" ++ label ++ " names unknown kind `" ++ kind ++ "`"
  | .unknownRole label role => "capture @" ++ label ++ " has unknown role `" ++ role ++ "`"
  | .foreignKind kind language =>
    "kind `" ++ kind.name ++ "` is not in the " ++ language ++ " taxonomy"

end LabelFault

namespace Role

def ofName? : String → Option Role
  | "name" => some .name
  | "type" => some .type
  | "return" => some .result
  | "ref" => some .reference
  | _ => none

end Role

namespace Label

/-- The part of a label before its first dot, and the part after it, if there is a dot. -/
def split (label : String) : String × Option String :=
  let cs := label.toList
  let before := String.ofList (cs.takeWhile (· != '.'))
  match cs.dropWhile (· != '.') with
  | [] => (before, none)
  | _ :: after => (before, some (String.ofList after))

/-- The meaning of a label; none for one that is for predicates only. -/
def parse (label : String) : Except LabelFault (Option Label) :=
  if label.toList.head? == some '_' then .ok none
  else
    let (kind, role) := split label
    match Kind.ofName? kind with
    | none => .error (.unknownKind label kind)
    | some k =>
      match role with
      | none => .ok (some ⟨k, none⟩)
      | some r =>
        match Role.ofName? r with
        | some role => .ok (some ⟨k, some role⟩)
        | none => .error (.unknownRole label r)

/-- The meaning of a label in a profile, whose taxonomy must have the kind. -/
def check (p : Profile) (label : String) : Except LabelFault (Option Label) :=
  match parse label with
  | .error e => .error e
  | .ok none => .ok none
  | .ok (some l) =>
    if p.taxonomy.contains l.kind then .ok (some l) else .error (.foreignKind l.kind p.id)

/-- The meanings of labels, in order; the first faulty one is a failure for the grammar. -/
def checkAll (p : Profile) (grammar : String) : List String → Except Failure (List (String × Label))
  | [] => .ok []
  | label :: rest =>
    match check p label with
    | .error e => .error (.query grammar ("@" ++ label) e.message)
    | .ok meaning => do
      let more ← checkAll p grammar rest
      return (meaning.map (label, ·)).toList ++ more

end Label

def meaning? (table : List (String × Label)) (label : String) : Option Label :=
  (table.find? (fun e => e.1 == label)).map (·.2)

namespace Candidate

/-- The first capture that marks an entity: its kind and its node. -/
def marked? (table : List (String × Label)) (captures : Captures) : Option (Kind × NodeInfo) :=
  captures.findSome? fun c =>
    match meaning? table c.1 with
    | some ⟨kind, none⟩ => some (kind, c.2.info)
    | _ => none

/-- A captured text added to a candidate: the first name and the last types count, and references
add up. -/
def addText (c : Candidate) (role : Role) (text : String) : Candidate :=
  match role with
  | .name => if c.name.isSome then c else { c with name := some (Text.collapse text) }
  | .type => { c with declaredType := Text.typeText? text }
  | .result => { c with returnType := Text.typeText? text }
  | .reference => { c with references := c.references ++ (Text.bases? text).toList }

/-- A capture added to a candidate, if it is a text for its kind. -/
def addCapture (f : SourceFile) (table : List (String × Label)) (c : Candidate)
    (capture : String × Node) : Candidate :=
  match meaning? table capture.1 with
  | some ⟨kind, some role⟩ =>
    if kind = c.kind then c.addText role (f.nodeText capture.2.info) else c
  | _ => c

/-- The candidate of a match, if it marks an entity with a text. -/
def ofMatch? (f : SourceFile) (table : List (String × Label)) (m : QueryMatch) : Option Candidate :=
  match marked? table m.captures with
  | none => none
  | some (kind, node) =>
    let span := f.spanOf node
    if span.isEmpty then none
    else
      some (m.captures.foldl (addCapture f table) ⟨kind, m.clause, span, none, none, none, []⟩)

end Candidate

end CodeAtlas
