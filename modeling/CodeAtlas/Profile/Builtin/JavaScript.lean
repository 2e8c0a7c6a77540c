import CodeAtlas.Profile.Basic

/-!
The profile of JavaScript.
-/

namespace CodeAtlas.Definition.JavaScript

def structureQuery : String := "; language: javascript
; version: 1

(import_statement
  source: (string) @import.name) @import

(class_declaration
  name: (identifier) @class.name
  (class_heritage)? @class.ref) @class

(method_definition
  name: (_) @method.name) @method

(field_definition
  property: (_) @field.name) @field

(function_declaration
  name: (identifier) @function.name) @function

(generator_function_declaration
  name: (identifier) @function.name) @function

; Arrow functions bound to a name are functions, not variables.
(lexical_declaration
  (variable_declarator
    name: (identifier) @function.name
    value: (arrow_function)) @function)

(program
  (lexical_declaration
    (variable_declarator
      name: (identifier) @variable.name) @variable))

(program
  (variable_declaration
    (variable_declarator
      name: (identifier) @variable.name) @variable))

(export_statement
  (lexical_declaration
    (variable_declarator
      name: (identifier) @variable.name) @variable))

(formal_parameters
  (identifier) @parameter @parameter.name)

(formal_parameters
  (assignment_pattern
    left: (identifier) @parameter.name) @parameter)

(formal_parameters
  (rest_pattern
    (identifier) @parameter.name) @parameter)
"

def scopeQuery : String := "; language: javascript
; version: 1

(class_declaration) @scope
(function_declaration) @scope
(generator_function_declaration) @scope
(method_definition) @scope
(arrow_function) @scope
(statement_block) @scope
"

def hoverableQuery : String := "; language: javascript
; version: 1

(identifier) @hover
(property_identifier) @hover
(shorthand_property_identifier) @hover
"

def classQuery : String := "; language: javascript
; version: 1

(class_declaration
  name: (identifier) @name) @class
"

def methodQuery : String := "; language: javascript
; version: 1

(method_definition
  name: (_) @name) @method
"

def docCommentQuery : String := "; language: javascript
; version: 1

((comment) @doc
  (#match? @doc \"^/\\\\*\\\\*\"))
"

def signatureQuery : String := "; language: javascript
; version: 1

(method_definition
  name: (_) @name
  parameters: (formal_parameters) @params) @signature
"

end CodeAtlas.Definition.JavaScript

namespace CodeAtlas.Definition

open JavaScript in
def javascript : Definition where
  id := "javascript"
  aliases := ["js", "jsx"]
  extensions := ["js", "jsx", "mjs", "cjs"]
  grammars := [.ofHandle .javascript]
  extensionGrammars := []
  testRule := .anyOf [.nameEnds ".test.js", .nameEnds ".test.jsx", .nameEnds ".spec.js",
    .nameEnds ".spec.jsx", .nameEnds ".test.mjs", .inDirectory "__tests__"]
  queries := [
    (.structural, structureQuery),
    (.scope, scopeQuery),
    (.hoverable, hoverableQuery),
    (.classes, classQuery),
    (.methods, methodQuery),
    (.docComment, docCommentQuery),
    (.signature, signatureQuery)]
  taxonomy := ⟨[
    .modules,
    ⟨"types", [.classDecl]⟩,
    .functions,
    ⟨"variables", [.variableDecl, .parameterDecl]⟩,
    ⟨"fields", [.fieldDecl]⟩]⟩
  builtinTypes := [
    "Object", "Array", "String", "Number", "Boolean", "BigInt", "Symbol", "Function", "Map",
    "Set", "WeakMap", "WeakSet", "Promise", "Date", "RegExp", "Error", "JSON", "Math",
    "undefined", "null"]
  autoSelect := [
    "identifier", "property_identifier", "shorthand_property_identifier"]

end CodeAtlas.Definition
