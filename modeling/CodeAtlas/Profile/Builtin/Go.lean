import CodeAtlas.Profile.Basic

/-!
The profile of Go.
-/

namespace CodeAtlas.Definition.Go

def structureQuery : String := "; language: go
; version: 1

(package_clause
  (package_identifier) @module.name) @module

(import_spec
  name: (_)? @import.ref
  path: (_) @import.name) @import

(function_declaration
  name: (identifier) @function.name
  result: (_)? @function.return) @function

(method_declaration
  receiver: (parameter_list
    (parameter_declaration
      type: (_) @method.ref))
  name: (field_identifier) @method.name
  result: (_)? @method.return) @method

(parameter_declaration
  name: (identifier) @parameter @parameter.name
  type: (_) @parameter.type)

(type_spec
  name: (type_identifier) @struct.name
  type: (struct_type)) @struct

(type_spec
  name: (type_identifier) @interface.name
  type: (interface_type)) @interface

(type_spec
  name: (type_identifier) @typedef.name
  type: (_) @typedef.type) @typedef

(type_alias
  name: (type_identifier) @typedef.name
  type: (_) @typedef.type) @typedef

(field_declaration
  name: (field_identifier) @field @field.name
  type: (_) @field.type)

; Embedded fields carry only a type.
(field_declaration
  !name
  type: (_) @field.name @field.type) @field

(interface_type
  (_
    name: (field_identifier) @method.name
    result: (_)? @method.return) @method)

(const_spec
  name: (identifier) @const @const.name
  type: (_)? @const.type)

(var_spec
  name: (identifier) @variable @variable.name
  type: (_)? @variable.type)
"

def scopeQuery : String := "; language: go
; version: 1

(function_declaration) @scope
(method_declaration) @scope
(func_literal) @scope
(block) @scope
"

def hoverableQuery : String := "; language: go
; version: 1

(identifier) @hover
(type_identifier) @hover
(field_identifier) @hover
(package_identifier) @hover
"

def classQuery : String := "; language: go
; version: 1

(type_spec
  name: (type_identifier) @name
  type: (struct_type)) @class

(type_spec
  name: (type_identifier) @name
  type: (interface_type)) @class
"

def methodQuery : String := "; language: go
; version: 1

(method_declaration
  name: (field_identifier) @name) @method
"

def docCommentQuery : String := "; language: go
; version: 1

(comment) @doc
"

def signatureQuery : String := "; language: go
; version: 1

(method_declaration
  name: (field_identifier) @name
  parameters: (parameter_list) @params
  result: (_)? @return) @signature

(interface_type
  (_
    name: (field_identifier) @name
    parameters: (parameter_list) @params
    result: (_)? @return) @signature)
"

end CodeAtlas.Definition.Go

namespace CodeAtlas.Definition

open Go in
def go : Definition where
  id := "go"
  aliases := ["golang"]
  extensions := ["go"]
  grammars := [.ofHandle .go]
  extensionGrammars := []
  testRule := .nameEnds "_test.go"
  queries := [
    (.structural, structureQuery),
    (.scope, scopeQuery),
    (.hoverable, hoverableQuery),
    (.classes, classQuery),
    (.methods, methodQuery),
    (.docComment, docCommentQuery),
    (.signature, signatureQuery)]
  taxonomy := ⟨[
    .modules,
    ⟨"types", [.structDecl, .interfaceDecl, .typedefDecl]⟩,
    .functions,
    ⟨"variables", [.constDecl, .variableDecl, .parameterDecl]⟩,
    ⟨"fields", [.fieldDecl]⟩]⟩
  builtinTypes := [
    "bool", "string", "byte", "rune", "error", "any", "int", "int8", "int16", "int32", "int64",
    "uint", "uint8", "uint16", "uint32", "uint64", "uintptr", "float32", "float64", "complex64",
    "complex128"]
  autoSelect := [
    "identifier", "field_identifier", "type_identifier", "package_identifier"]

end CodeAtlas.Definition
