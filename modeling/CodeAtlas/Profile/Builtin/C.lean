import CodeAtlas.Profile.Basic

/-!
The profile of C.
-/

namespace CodeAtlas.Definition.C

def structureQuery : String := "; language: c
; version: 1

(preproc_include
  path: (_) @import.name) @import

(preproc_def
  name: (identifier) @const.name) @const

(function_definition
  type: (_) @function.return
  declarator: (function_declarator
    declarator: (identifier) @function.name)) @function

(function_definition
  type: (_) @function.return
  declarator: (pointer_declarator
    declarator: (function_declarator
      declarator: (identifier) @function.name))) @function

; Prototypes.
(declaration
  type: (_) @function.return
  declarator: (function_declarator
    declarator: (identifier) @function.name)) @function

(struct_specifier
  name: (type_identifier) @struct.name
  body: (field_declaration_list)) @struct

(union_specifier
  name: (type_identifier) @union.name
  body: (field_declaration_list)) @union

(enum_specifier
  name: (type_identifier) @enum.name
  body: (enumerator_list)) @enum

(enumerator
  name: (identifier) @enumerator.name) @enumerator

(field_declaration
  type: (_) @field.type
  declarator: (field_identifier) @field @field.name)

(field_declaration
  type: (_) @field.type
  declarator: (pointer_declarator
    declarator: (field_identifier) @field.name) @field)

(field_declaration
  type: (_) @field.type
  declarator: (array_declarator
    declarator: (field_identifier) @field.name) @field)

(type_definition
  type: (_) @typedef.type
  declarator: (type_identifier) @typedef.name) @typedef

(parameter_declaration
  type: (_) @parameter.type
  declarator: (identifier) @parameter.name) @parameter

(parameter_declaration
  type: (_) @parameter.type
  declarator: (pointer_declarator
    declarator: (identifier) @parameter.name)) @parameter

(translation_unit
  (declaration
    type: (_) @variable.type
    declarator: (identifier) @variable @variable.name))

(translation_unit
  (declaration
    type: (_) @variable.type
    declarator: (init_declarator
      declarator: (identifier) @variable.name) @variable))
"

def scopeQuery : String := "; language: c
; version: 1

(function_definition) @scope
(compound_statement) @scope
(struct_specifier) @scope
(union_specifier) @scope
"

def hoverableQuery : String := "; language: c
; version: 1

(identifier) @hover
(type_identifier) @hover
(field_identifier) @hover
(primitive_type) @hover
"

def classQuery : String := "; language: c
; version: 1

(struct_specifier
  name: (type_identifier) @name
  body: (field_declaration_list)) @class

(union_specifier
  name: (type_identifier) @name
  body: (field_declaration_list)) @class
"

def methodQuery : String := "; language: c
; version: 1

; Function-pointer members act as methods.
(field_declaration
  declarator: (function_declarator
    declarator: (_) @name)) @method
"

def docCommentQuery : String := "; language: c
; version: 1

(comment) @doc
"

def signatureQuery : String := "; language: c
; version: 1

(field_declaration
  type: (_) @return
  declarator: (function_declarator
    declarator: (_) @name
    parameters: (parameter_list) @params)) @signature
"

end CodeAtlas.Definition.C

namespace CodeAtlas.Definition

open C in
def c : Definition where
  id := "c"
  aliases := []
  extensions := ["c", "h"]
  grammars := [.ofHandle .c]
  extensionGrammars := []
  testRule := .anyOf [.both (.nameStarts "test_") (.nameEnds ".c"), .nameEnds "_test.c", .inDirectory "tests"]
  queries := [
    (.structural, structureQuery),
    (.scope, scopeQuery),
    (.hoverable, hoverableQuery),
    (.classes, classQuery),
    (.methods, methodQuery),
    (.docComment, docCommentQuery),
    (.signature, signatureQuery)]
  taxonomy := ⟨[
    .modules,
    ⟨"types", [.structDecl, .unionDecl, .enumDecl, .typedefDecl]⟩,
    .functions,
    ⟨"variables", [.constDecl, .variableDecl, .parameterDecl]⟩,
    ⟨"fields", [.fieldDecl, .enumeratorDecl]⟩]⟩
  builtinTypes := [
    "void", "char", "short", "int", "long", "float", "double", "signed", "unsigned", "_Bool",
    "bool", "size_t", "ssize_t", "ptrdiff_t", "int8_t", "int16_t", "int32_t", "int64_t",
    "uint8_t", "uint16_t", "uint32_t", "uint64_t"]
  autoSelect := [
    "identifier", "field_identifier", "type_identifier", "primitive_type"]

end CodeAtlas.Definition
