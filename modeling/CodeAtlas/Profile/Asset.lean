import CodeAtlas.Text.Quoted
import CodeAtlas.Text.Words

/-!
Query assets.  An asset is a query text that starts with two comment lines, blank lines aside:

    ; language: rust
    ; version: 1

An asset belongs to the language that its header names.
-/

namespace CodeAtlas

/-- The queries that every profile has. -/
inductive QueryName where
  | structural
  | scope
  | hoverable
  | classes
  | methods
  | docComment
  | signature
deriving DecidableEq, Repr, Inhabited

namespace QueryName

def all : List QueryName :=
  [.structural, .scope, .hoverable, .classes, .methods, .docComment, .signature]

def text : QueryName → String
  | .structural => "structure"
  | .scope => "scope"
  | .hoverable => "hoverable"
  | .classes => "class"
  | .methods => "method"
  | .docComment => "doc_comment"
  | .signature => "method_signature"

def ofText? (s : String) : Option QueryName :=
  all.find? (fun n => n.text == s)

theorem mem_all (n : QueryName) : n ∈ all := by
  cases n <;> decide

end QueryName

/-- What is wrong with a profile's definition. -/
inductive ProfileFault where
  /-- A query text without a language in its first line. -/
  | noLanguage (language query : String)
  /-- A query text without a version in its second line. -/
  | noVersion (language query : String)
  /-- A query text of another language. -/
  | foreignAsset (language query tag : String)
  /-- An extension that selects a grammar the profile does not have. -/
  | unknownGrammar (language extension grammar : String)
  | missingQuery (language query : String)
  /-- A list that must have members has none. -/
  | empty (language what : String)
deriving DecidableEq, Repr

namespace ProfileFault

/-- A fault of one query text, or of the grammar table. -/
def assetMessage (language query reason : String) : String :=
  "profile " ++ language ++ ": query asset " ++ query ++ ": " ++ reason

def message : ProfileFault → String
  | .noLanguage language query => assetMessage language query "missing `; language:` header"
  | .noVersion language query => assetMessage language query "missing `; version:` header"
  | .foreignAsset language query tag =>
    assetMessage language query ("asset is tagged for language " ++ Text.quoted tag)
  | .unknownGrammar language extension grammar =>
    assetMessage language "grammar"
      ("extension " ++ extension ++ " names unknown grammar " ++ grammar)
  | .missingQuery language query => "profile " ++ language ++ ": missing " ++ query ++ " query"
  | .empty language what => "profile " ++ language ++ ": " ++ what ++ " must not be empty"

end ProfileFault

/-- A query text with what its header says. -/
structure Asset where
  name : QueryName
  language : String
  version : Nat
  source : String
deriving DecidableEq, Repr, Inhabited

namespace Asset

/-- The lines of a text that are not blank, trimmed. -/
def headerLines (source : String) : List (List Char) :=
  ((Text.lines source.toList).map Text.trimChars).filter (fun l => !l.isEmpty)

/-- What follows semicolons, blanks, the given words and blanks in a header line. -/
def headerValue? (words : String) (line : List Char) : Option (List Char) :=
  match line with
  | ';' :: rest =>
    let body := Text.dropLeading Text.isBlank (rest.dropWhile (· == ';'))
    (Text.stripLead? words.toList body).map (Text.dropLeading Text.isBlank)
  | _ => none

/-- A character of a language tag. -/
def isTagChar (c : Char) : Bool :=
  c.isAlphanum || c == '_' || c == '+' || c == '-'

/-- The value, if it consists of one character or more of a class, and blanks after them. -/
def only? (ok : Char → Bool) (value : List Char) : Option (List Char) :=
  let word := value.takeWhile ok
  if word.isEmpty || !(value.dropWhile ok).all Text.isBlank then none else some word

/-- The language that a header line names. -/
def languageTag? (line : List Char) : Option String := do
  let value ← headerValue? "language:" line
  let word ← only? isTagChar value
  return String.ofList word

def digitsValue (digits : List Char) : Nat :=
  digits.foldl (fun n d => n * 10 + (d.toNat - '0'.toNat)) 0

/-- The version that a header line names; versions have 32 bits. -/
def version? (line : List Char) : Option Nat := do
  let value ← headerValue? "version:" line
  let digits ← only? Char.isDigit value
  let n := digitsValue digits
  if n < UInt32.size then some n else none

/-- The asset of a query text, which must be tagged for the language. -/
def parse (language : String) (name : QueryName) (source : String) : Except ProfileFault Asset :=
  let header := headerLines source
  match header.head?.bind languageTag? with
  | none => .error (.noLanguage language name.text)
  | some tag =>
    match (header.drop 1).head?.bind version? with
    | none => .error (.noVersion language name.text)
    | some version =>
      if tag == language then .ok ⟨name, tag, version, source⟩
      else .error (.foreignAsset language name.text tag)

end Asset

/-- The queries of a profile, one asset for each name. -/
structure QuerySet where
  get : QueryName → Asset

namespace QuerySet

instance : Inhabited QuerySet := ⟨⟨fun _ => default⟩⟩

def toList (q : QuerySet) : List Asset :=
  QueryName.all.map q.get

/-- The asset of one name: the first text listed under it. -/
def load (language : String) (sources : List (QueryName × String)) (name : QueryName) :
    Except ProfileFault Asset :=
  match sources.find? (fun s => s.1 == name) with
  | none => .error (.missingQuery language name.text)
  | some s => Asset.parse language name s.2

/-- The assets of all names, in order; the first fault ends it. -/
def ofSources (language : String) (sources : List (QueryName × String)) :
    Except ProfileFault QuerySet := do
  let structural ← load language sources .structural
  let scope ← load language sources .scope
  let hoverable ← load language sources .hoverable
  let classes ← load language sources .classes
  let methods ← load language sources .methods
  let docComment ← load language sources .docComment
  let signature ← load language sources .signature
  return ⟨fun
    | .structural => structural
    | .scope => scope
    | .hoverable => hoverable
    | .classes => classes
    | .methods => methods
    | .docComment => docComment
    | .signature => signature⟩

end QuerySet

end CodeAtlas
