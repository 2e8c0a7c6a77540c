import CodeAtlas.Profile.Basic

/-!
The profile of TypeScript, with and without JSX elements.
-/

namespace CodeAtlas.Definition.TypeScript

def structureQuery : String := "; language: typescript
; version: 1

(import_statement
  source: (string) @import.name) @import

(internal_module
  name: (_) @module.name) @module

(class_declaration
  name: (type_identifier) @class.name
  (class_heritage)? @class.ref) @class

(abstract_class_declaration
  name: (type_identifier) @class.name
  (class_heritage)? @class.ref) @class

(interface_declaration
  name: (type_identifier) @interface.name) @interface

(enum_declaration
  name: (identifier) @enum.name) @enum

(enum_body
  (property_identifier) @enumerator @enumerator.name)

(enum_body
  (enum_assignment
    name: (property_identifier) @enumerator.name) @enumerator)

(type_alias_declaration
  name: (type_identifier) @typedef.name
  value: (_) @typedef.type) @typedef

(method_definition
  name: (_) @method.name
  return_type: (_)? @method.return) @method

(method_signature
  name: (_) @method.name
  return_type: (_)? @method.return) @method

(abstract_method_signature
  name: (_) @method.name
  return_type: (_)? @method.return) @method

(public_field_definition
  name: (_) @field.name
  type: (_)? @field.type) @field

(property_signature
  name: (_) @field.name
  type: (_)? @field.type) @field

(function_declaration
  name: (identifier) @function.name
  return_type: (_)? @function.return) @function

(generator_function_declaration
  name: (identifier) @function.name
  return_type: (_)? @function.return) @function

; Arrow functions bound to a name are functions, not variables.
(lexical_declaration
  (variable_declarator
    name: (identifier) @function.name
    value: (arrow_function
      return_type: (_)? @function.return)) @function)

(program
  (lexical_declaration
    (variable_declarator
      name: (identifier) @variable.name
      type: (_)? @variable.type) @variable))

(export_statement
  (lexical_declaration
    (variable_declarator
      name: (identifier) @variable.name
      type: (_)? @variable.type) @variable))

(required_parameter
  pattern: (_) @parameter.name
  type: (_)? @parameter.type) @parameter

(optional_parameter
  pattern: (_) @parameter.name
  type: (_)? @parameter.type) @parameter
"

def scopeQuery : String := "; language: typescript
; version: 1

(class_declaration) @scope
(abstract_class_declaration) @scope
(interface_declaration) @scope
(internal_module) @scope
(function_declaration) @scope
(generator_function_declaration) @scope
(method_definition) @scope
(arrow_function) @scope
(statement_block) @scope
"

def hoverableQuery : String := "; language: typescript
; version: 1

(identifier) @hover
(property_identifier) @hover
(shorthand_property_identifier) @hover
(type_identifier) @hover
(predefined_type) @hover
"

def classQuery : String := "; language: typescript
; version: 1

(class_declaration
  name: (type_identifier) @name) @class

(abstract_class_declaration
  name: (type_identifier) @name) @class

(interface_declaration
  name: (type_identifier) @name) @class
"

def methodQuery : String := "; language: typescript
; version: 1

(method_definition
  name: (_) @name) @method
"

def docCommentQuery : String := "; language: typescript
; version: 1

((comment) @doc
  (#match? @doc \"^/\\\\*\\\\*\"))
"

def signatureQuery : String := "; language: typescript
; version: 1

(method_definition
  name: (_) @name
  parameters: (formal_parameters) @params
  return_type: (_)? @return) @signature

(method_signature
  name: (_) @name
  parameters: (formal_parameters) @params
  return_type: (_)? @return) @signature

(abstract_method_signature
  name: (_) @name
  parameters: (formal_parameters) @params
  return_type: (_)? @return) @signature
"

end CodeAtlas.Definition.TypeScript

namespace CodeAtlas.Definition

open TypeScript in
def typescript : Definition where
  id := "typescript"
  aliases := ["ts"]
  extensions := ["ts", "tsx", "mts", "cts"]
  grammars := [.ofHandle .typescript, .ofHandle .tsx]
  extensionGrammars := [("tsx", "tsx")]
  testRule := .anyOf [.nameEnds ".test.ts", .nameEnds ".test.tsx", .nameEnds ".spec.ts",
    .nameEnds ".spec.tsx", .inDirectory "__tests__"]
  queries := [
    (.structural, structureQuery),
    (.scope, scopeQuery),
    (.hoverable, hoverableQuery),
    (.classes, classQuery),
    (.methods, methodQuery),
    (.docComment, docCommentQuery),
    (.signature, signatureQuery)]
  taxonomy := ⟨[
    .modules,
    ⟨"types", [.classDecl, .interfaceDecl, .enumDecl, .typedefDecl]⟩,
    .functions,
    ⟨"variables", [.variableDecl, .parameterDecl]⟩,
    ⟨"fields", [.fieldDecl, .enumeratorDecl]⟩]⟩
  builtinTypes := [
    "string", "number", "boolean", "bigint", "symbol", "object", "any", "unknown", "never",
    "void", "null", "undefined", "Array", "Promise", "Record", "Partial", "Readonly", "Map",
    "Set", "Date"]
  autoSelect := [
    "identifier", "property_identifier", "shorthand_property_identifier", "type_identifier",
    "predefined_type"]

end CodeAtlas.Definition
