import CodeAtlas.Profile.Basic

/-!
The profile of Rust.
-/

namespace CodeAtlas.Definition.Rust

def structureQuery : String := "; language: rust
; version: 1

; Methods are declared before plain functions so they win on the same span.
(impl_item
  body: (declaration_list
    (function_item
      name: (identifier) @method.name
      return_type: (_)? @method.return) @method))

(trait_item
  body: (declaration_list
    (function_signature_item
      name: (identifier) @method.name
      return_type: (_)? @method.return) @method))

(trait_item
  body: (declaration_list
    (function_item
      name: (identifier) @method.name
      return_type: (_)? @method.return) @method))

(function_item
  name: (identifier) @function.name
  return_type: (_)? @function.return) @function

(parameter
  pattern: (_) @parameter.name
  type: (_) @parameter.type) @parameter

(self_parameter) @parameter @parameter.name

(mod_item
  name: (identifier) @module.name) @module

(use_declaration
  argument: (_) @import.name) @import

(struct_item
  name: (type_identifier) @struct.name) @struct

(union_item
  name: (type_identifier) @union.name) @union

(field_declaration
  name: (field_identifier) @field.name
  type: (_) @field.type) @field

(enum_item
  name: (type_identifier) @enum.name) @enum

(enum_variant
  name: (identifier) @enumerator.name) @enumerator

(type_item
  name: (type_identifier) @typedef.name
  type: (_) @typedef.type) @typedef

(trait_item
  name: (type_identifier) @interface.name) @interface

(impl_item
  trait: (_)? @impl.ref
  type: (_) @impl.name) @impl

(const_item
  name: (identifier) @const.name
  type: (_) @const.type) @const

(static_item
  name: (identifier) @variable.name
  type: (_) @variable.type) @variable
"

def scopeQuery : String := "; language: rust
; version: 1

(mod_item) @scope
(impl_item) @scope
(trait_item) @scope
(function_item) @scope
(closure_expression) @scope
(block) @scope
"

def hoverableQuery : String := "; language: rust
; version: 1

(identifier) @hover
(type_identifier) @hover
(field_identifier) @hover
(primitive_type) @hover
"

def classQuery : String := "; language: rust
; version: 1

(struct_item
  name: (type_identifier) @name) @class

(enum_item
  name: (type_identifier) @name) @class

(union_item
  name: (type_identifier) @name) @class

(trait_item
  name: (type_identifier) @name) @class
"

def methodQuery : String := "; language: rust
; version: 1

(impl_item
  body: (declaration_list
    (function_item
      name: (identifier) @name) @method))

(trait_item
  body: (declaration_list
    (function_item
      name: (identifier) @name) @method))
"

def docCommentQuery : String := "; language: rust
; version: 1

((line_comment) @doc
  (#match? @doc \"^//[/!]\"))

((block_comment) @doc
  (#match? @doc \"^/\\\\*[*!]\"))
"

def signatureQuery : String := "; language: rust
; version: 1

(trait_item
  body: (declaration_list
    (function_signature_item
      name: (identifier) @name
      parameters: (parameters) @params
      return_type: (_)? @return) @signature))

(impl_item
  body: (declaration_list
    (function_item
      name: (identifier) @name
      parameters: (parameters) @params
      return_type: (_)? @return) @signature))
"

end CodeAtlas.Definition.Rust

namespace CodeAtlas.Definition

open Rust in
def rust : Definition where
  id := "rust"
  aliases := ["rs"]
  extensions := ["rs"]
  grammars := [.ofHandle .rust]
  extensionGrammars := []
  testRule := .anyOf [.inDirectory "tests", .nameEnds "_test.rs", .nameEnds "_tests.rs"]
  queries := [
    (.structural, structureQuery),
    (.scope, scopeQuery),
    (.hoverable, hoverableQuery),
    (.classes, classQuery),
    (.methods, methodQuery),
    (.docComment, docCommentQuery),
    (.signature, signatureQuery)]
  taxonomy := ⟨[
    .modules,
    ⟨"types", [.structDecl, .enumDecl, .unionDecl, .typedefDecl, .interfaceDecl, .implDecl]⟩,
    .functions,
    ⟨"variables", [.constDecl, .variableDecl, .parameterDecl]⟩,
    ⟨"fields", [.fieldDecl, .enumeratorDecl]⟩,
    ⟨"rust", [.labelDecl, .lifetimeDecl]⟩]⟩
  builtinTypes := [
    "bool", "char", "str", "String", "i8", "i16", "i32", "i64", "i128", "isize", "u8", "u16",
    "u32", "u64", "u128", "usize", "f32", "f64", "Self", "Option", "Result", "Vec", "Box", "Rc",
    "Arc"]
  autoSelect := [
    "identifier", "field_identifier", "type_identifier", "primitive_type", "visibility_modifier"]

end CodeAtlas.Definition
