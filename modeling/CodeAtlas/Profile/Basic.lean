import CodeAtlas.Grammar.Handle
import CodeAtlas.PathName
import CodeAtlas.Profile.Asset
import CodeAtlas.Taxonomy

/-!
Language profiles.  A `Definition` describes a language; `Profile.ofDefinition` checks it and loads
its queries.  A profile has at least one grammar: the first one is its default, and the others are
selected by their id or by an extension.
-/

namespace CodeAtlas

/-- The description of a language. -/
structure Definition where
  id : String
  aliases : List String
  /-- File extensions, without a dot. -/
  extensions : List String
  grammars : List Grammar
  /-- Extensions that select a grammar by its id. -/
  extensionGrammars : List (String × String)
  testRule : TestRule
  queries : List (QueryName × String)
  taxonomy : Taxonomy
  builtinTypes : List String
  /-- Node kinds whose selection widens to the parent. -/
  autoSelect : List String
deriving Repr, Inhabited

/-- A checked language profile. -/
structure Profile where
  id : String
  aliases : List String
  extensions : List String
  defaultGrammar : Grammar
  otherGrammars : List Grammar
  extensionGrammars : List (String × String)
  testRule : TestRule
  queries : QuerySet
  taxonomy : Taxonomy
  builtinTypes : List String
  autoSelect : List String
deriving Inhabited

namespace Profile

/-- The grammars of a profile, the default first. -/
def grammars (p : Profile) : List Grammar :=
  p.defaultGrammar :: p.otherGrammars

/-- The first extension of a table that names a grammar id none of the grammars has. -/
def unknownGrammar? (grammars : List Grammar) (table : List (String × String)) :
    Option (String × String) :=
  table.find? (fun e => !grammars.any (fun g => g.id == e.2))

def ofDefinition (d : Definition) : Except ProfileFault Profile :=
  if d.extensions.isEmpty then .error (.empty d.id "extensions")
  else if d.taxonomy.isEmpty then .error (.empty d.id "taxonomy")
  else
    match d.grammars with
    | [] => .error (.empty d.id "grammars")
    | first :: others =>
      match unknownGrammar? (first :: others) d.extensionGrammars with
      | some (extension, grammar) => .error (.unknownGrammar d.id extension grammar)
      | none => do
        let queries ← QuerySet.ofSources d.id d.queries
        return {
          id := d.id
          aliases := d.aliases
          extensions := d.extensions
          defaultGrammar := first
          otherGrammars := others
          extensionGrammars := d.extensionGrammars
          testRule := d.testRule
          queries := queries
          taxonomy := d.taxonomy
          builtinTypes := d.builtinTypes
          autoSelect := d.autoSelect }

def grammarById? (p : Profile) (id : String) : Option Grammar :=
  p.grammars.find? (fun g => g.id == id)

/-- The grammar of a key, which may have leading dots: a grammar id, an extension that selects a
grammar, or an extension, id or alias of the language, which mean the default. -/
def grammar? (p : Profile) (key : String) : Option Grammar :=
  let key := String.ofList (key.toList.dropWhile (· == '.'))
  match p.grammarById? key with
  | some g => some g
  | none =>
    match p.extensionGrammars.find? (fun e => Text.sameIgnoringCase e.1 key) with
    | some e => p.grammarById? e.2
    | none =>
      if p.extensions.any (fun e => Text.sameIgnoringCase e key) || p.id == key ||
          p.aliases.contains key then
        some p.defaultGrammar
      else none

/-- The grammar for a file, by its extension. -/
def grammarForPath (p : Profile) (path : String) : Grammar :=
  ((PathName.extension? path).bind p.grammar?).getD p.defaultGrammar

def isTestFile (p : Profile) (path : String) : Bool :=
  p.testRule.accepts path

def isBuiltinType (p : Profile) (name : String) : Bool :=
  p.builtinTypes.contains name

/-- Whether selecting a node of this kind widens to its parent. -/
def widens (p : Profile) (kind : String) : Bool :=
  p.autoSelect.contains kind

def sortedBuiltinTypes (p : Profile) : List String :=
  p.builtinTypes.mergeSort Text.lexLe

/-- A list of quoted texts in brackets. -/
def quotedList (texts : List String) : String :=
  "[" ++ Text.join ", " (texts.map Text.quoted) ++ "]"

def describe (p : Profile) : String :=
  let grammars := p.grammars.map
    (fun g => "Grammar \x7b id: GrammarId(" ++ Text.quoted g.id ++ ") \x7d")
  "LanguageProfile \x7b id: " ++ Text.quoted p.id ++ ", extensions: " ++ quotedList p.extensions ++
    ", grammars: [" ++ Text.join ", " grammars ++ "] \x7d"

end Profile

end CodeAtlas
