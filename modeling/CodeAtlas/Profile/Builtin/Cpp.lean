import CodeAtlas.Profile.Basic

/-!
The profile of C++.
-/

namespace CodeAtlas.Definition.Cpp

def structureQuery : String := "; language: cpp
; version: 1

(preproc_include
  path: (_) @import.name) @import

(using_declaration) @import @import.name

(preproc_def
  name: (identifier) @const.name) @const

(namespace_definition
  name: (_) @module.name) @module

(class_specifier
  name: (_) @class.name
  (base_class_clause)? @class.ref
  body: (field_declaration_list)) @class

(struct_specifier
  name: (_) @struct.name
  (base_class_clause)? @struct.ref
  body: (field_declaration_list)) @struct

(union_specifier
  name: (_) @union.name
  body: (field_declaration_list)) @union

(enum_specifier
  name: (_) @enum.name
  body: (enumerator_list)) @enum

(enumerator
  name: (identifier) @enumerator.name) @enumerator

; Methods are declared before plain functions so they win on the same span.
(field_declaration_list
  (function_definition
    type: (_)? @method.return
    declarator: (function_declarator
      declarator: (_) @method.name)) @method)

(field_declaration_list
  (field_declaration
    type: (_)? @method.return
    declarator: (function_declarator
      declarator: (_) @method.name)) @method)

(field_declaration_list
  (declaration
    declarator: (function_declarator
      declarator: (_) @method.name)) @method)

(function_definition
  type: (_)? @method.return
  declarator: (function_declarator
    declarator: (qualified_identifier) @method.name)) @method

(function_definition
  type: (_) @function.return
  declarator: (function_declarator
    declarator: (identifier) @function.name)) @function

(function_definition
  type: (_) @function.return
  declarator: (pointer_declarator
    declarator: (function_declarator
      declarator: (identifier) @function.name))) @function

(function_definition
  type: (_) @function.return
  declarator: (reference_declarator
    (function_declarator
      declarator: (identifier) @function.name))) @function

(field_declaration
  type: (_) @field.type
  declarator: (field_identifier) @field @field.name)

(field_declaration
  type: (_) @field.type
  declarator: (pointer_declarator
    declarator: (field_identifier) @field.name) @field)

(field_declaration
  type: (_) @field.type
  declarator: (array_declarator
    declarator: (field_identifier) @field.name) @field)

(type_definition
  type: (_) @typedef.type
  declarator: (type_identifier) @typedef.name) @typedef

(alias_declaration
  name: (type_identifier) @typedef.name
  type: (_) @typedef.type) @typedef

(parameter_declaration
  type: (_) @parameter.type
  declarator: (identifier) @parameter.name) @parameter

(parameter_declaration
  type: (_) @parameter.type
  declarator: (pointer_declarator
    declarator: (identifier) @parameter.name)) @parameter

(parameter_declaration
  type: (_) @parameter.type
  declarator: (reference_declarator
    (identifier) @parameter.name)) @parameter

(translation_unit
  (declaration
    type: (_) @variable.type
    declarator: (identifier) @variable @variable.name))

(translation_unit
  (declaration
    type: (_) @variable.type
    declarator: (init_declarator
      declarator: (identifier) @variable.name) @variable))
"

def scopeQuery : String := "; language: cpp
; version: 1

(namespace_definition) @scope
(class_specifier) @scope
(struct_specifier) @scope
(function_definition) @scope
(lambda_expression) @scope
(compound_statement) @scope
"

def hoverableQuery : String := "; language: cpp
; version: 1

(identifier) @hover
(type_identifier) @hover
(field_identifier) @hover
(namespace_identifier) @hover
(primitive_type) @hover
"

def classQuery : String := "; language: cpp
; version: 1

(class_specifier
  name: (_) @name
  body: (field_declaration_list)) @class

(struct_specifier
  name: (_) @name
  body: (field_declaration_list)) @class
"

def methodQuery : String := "; language: cpp
; version: 1

(field_declaration_list
  (function_definition
    declarator: (function_declarator
      declarator: (_) @name)) @method)

(function_definition
  declarator: (function_declarator
    declarator: (qualified_identifier) @name)) @method
"

def docCommentQuery : String := "; language: cpp
; version: 1

(comment) @doc
"

def signatureQuery : String := "; language: cpp
; version: 1

(field_declaration_list
  (field_declaration
    type: (_)? @return
    declarator: (function_declarator
      declarator: (_) @name
      parameters: (parameter_list) @params)) @signature)

(field_declaration_list
  (function_definition
    type: (_)? @return
    declarator: (function_declarator
      declarator: (_) @name
      parameters: (parameter_list) @params)) @signature)
"

end CodeAtlas.Definition.Cpp

namespace CodeAtlas.Definition

open Cpp in
def cpp : Definition where
  id := "cpp"
  aliases := ["c++", "cxx"]
  extensions := ["cpp", "cc", "cxx", "hpp", "hh", "hxx"]
  grammars := [.ofHandle .cpp]
  extensionGrammars := []
  testRule := .anyOf [.nameEnds "_test.cpp", .nameEnds "_test.cc", .inDirectory "tests"]
  queries := [
    (.structural, structureQuery),
    (.scope, scopeQuery),
    (.hoverable, hoverableQuery),
    (.classes, classQuery),
    (.methods, methodQuery),
    (.docComment, docCommentQuery),
    (.signature, signatureQuery)]
  taxonomy := ⟨[
    .modules,
    ⟨"types", [.classDecl, .structDecl, .unionDecl, .enumDecl, .typedefDecl]⟩,
    .functions,
    ⟨"variables", [.constDecl, .variableDecl, .parameterDecl]⟩,
    ⟨"fields", [.fieldDecl, .enumeratorDecl]⟩]⟩
  builtinTypes := [
    "void", "bool", "char", "wchar_t", "char8_t", "char16_t", "char32_t", "short", "int", "long",
    "float", "double", "signed", "unsigned", "auto", "size_t", "int8_t", "int16_t", "int32_t",
    "int64_t", "uint8_t", "uint16_t", "uint32_t", "uint64_t", "std::string", "std::vector",
    "std::map", "std::unique_ptr", "std::shared_ptr"]
  autoSelect := [
    "identifier", "field_identifier", "type_identifier", "namespace_identifier", "primitive_type"]

end CodeAtlas.Definition
