/-!
The kinds of program entities, shared by all languages.  Each kind has one name; reading accepts
exactly the names (`ofName?_name`), and `all` lists the kinds in their fixed order.
-/

namespace CodeAtlas

/-- What a program entity declares. -/
inductive Kind where
  | moduleDecl
  | importDecl
  | constDecl
  | functionDecl
  | methodDecl
  | variableDecl
  | structDecl
  | classDecl
  | enumDecl
  | unionDecl
  | typedefDecl
  | interfaceDecl
  | implDecl
  | fieldDecl
  | enumeratorDecl
  | parameterDecl
  | labelDecl
  | lifetimeDecl
deriving DecidableEq, Repr, Inhabited

namespace Kind

def all : List Kind :=
  [.moduleDecl, .importDecl, .constDecl, .functionDecl, .methodDecl, .variableDecl, .structDecl,
    .classDecl, .enumDecl, .unionDecl, .typedefDecl, .interfaceDecl, .implDecl, .fieldDecl,
    .enumeratorDecl, .parameterDecl, .labelDecl, .lifetimeDecl]

def name : Kind → String
  | .moduleDecl => "module"
  | .importDecl => "import"
  | .constDecl => "const"
  | .functionDecl => "function"
  | .methodDecl => "method"
  | .variableDecl => "variable"
  | .structDecl => "struct"
  | .classDecl => "class"
  | .enumDecl => "enum"
  | .unionDecl => "union"
  | .typedefDecl => "typedef"
  | .interfaceDecl => "interface"
  | .implDecl => "impl"
  | .fieldDecl => "field"
  | .enumeratorDecl => "enumerator"
  | .parameterDecl => "parameter"
  | .labelDecl => "label"
  | .lifetimeDecl => "lifetime"

/-- The position of a kind in `all`. -/
def order (k : Kind) : Nat :=
  all.idxOf k

def ofName? (s : String) : Option Kind :=
  all.find? (fun k => k.name == s)

def isCallable : Kind → Bool
  | .functionDecl | .methodDecl => true
  | _ => false

def isType : Kind → Bool
  | .structDecl | .classDecl | .enumDecl | .unionDecl | .typedefDecl | .interfaceDecl
  | .implDecl => true
  | _ => false

theorem mem_all (k : Kind) : k ∈ all := by
  cases k <;> decide

theorem ofName?_name (k : Kind) : ofName? k.name = some k := by
  cases k <;> decide

theorem name_of_ofName? {s : String} {k : Kind} (h : ofName? s = some k) : k.name = s := by
  simpa using List.find?_some h

end Kind

end CodeAtlas
