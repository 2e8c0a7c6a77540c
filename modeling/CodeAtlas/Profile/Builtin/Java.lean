import CodeAtlas.Profile.Basic

/-!
The profile of Java.
-/

namespace CodeAtlas.Definition.Java

def structureQuery : String := "; language: java
; version: 1

(package_declaration
  (_) @module.name) @module

(import_declaration
  (_) @import.name) @import

(class_declaration
  name: (identifier) @class.name
  superclass: (superclass (_) @class.ref)?
  interfaces: (super_interfaces (type_list) @class.ref)?) @class

(record_declaration
  name: (identifier) @class.name) @class

(interface_declaration
  name: (identifier) @interface.name) @interface

(enum_declaration
  name: (identifier) @enum.name) @enum

(enum_constant
  name: (identifier) @enumerator.name) @enumerator

(method_declaration
  type: (_) @method.return
  name: (identifier) @method.name) @method

(constructor_declaration
  name: (identifier) @method.name) @method

(field_declaration
  type: (_) @field.type
  declarator: (variable_declarator
    name: (_) @field @field.name))

(constant_declaration
  type: (_) @const.type
  declarator: (variable_declarator
    name: (_) @const @const.name))

(formal_parameter
  type: (_) @parameter.type
  name: (_) @parameter.name) @parameter
"

def scopeQuery : String := "; language: java
; version: 1

(class_declaration) @scope
(interface_declaration) @scope
(enum_declaration) @scope
(record_declaration) @scope
(method_declaration) @scope
(constructor_declaration) @scope
(lambda_expression) @scope
(block) @scope
"

def hoverableQuery : String := "; language: java
; version: 1

(identifier) @hover
(type_identifier) @hover
(integral_type) @hover
(floating_point_type) @hover
(boolean_type) @hover
(void_type) @hover
"

def classQuery : String := "; language: java
; version: 1

(class_declaration
  name: (identifier) @name) @class

(interface_declaration
  name: (identifier) @name) @class

(enum_declaration
  name: (identifier) @name) @class

(record_declaration
  name: (identifier) @name) @class
"

def methodQuery : String := "; language: java
; version: 1

(method_declaration
  name: (identifier) @name) @method

(constructor_declaration
  name: (identifier) @name) @method
"

def docCommentQuery : String := "; language: java
; version: 1

((block_comment) @doc
  (#match? @doc \"^/\\\\*\\\\*\"))
"

def signatureQuery : String := "; language: java
; version: 1

(method_declaration
  type: (_) @return
  name: (identifier) @name
  parameters: (formal_parameters) @params) @signature

(constructor_declaration
  name: (identifier) @name
  parameters: (formal_parameters) @params) @signature
"

end CodeAtlas.Definition.Java

namespace CodeAtlas.Definition

open Java in
def java : Definition where
  id := "java"
  aliases := []
  extensions := ["java"]
  grammars := [.ofHandle .java]
  extensionGrammars := []
  testRule := .anyOf [.nameEnds "Test.java", .nameEnds "Tests.java", .inDirectories ["src", "test"]]
  queries := [
    (.structural, structureQuery),
    (.scope, scopeQuery),
    (.hoverable, hoverableQuery),
    (.classes, classQuery),
    (.methods, methodQuery),
    (.docComment, docCommentQuery),
    (.signature, signatureQuery)]
  taxonomy := ⟨[
    .modules,
    ⟨"types", [.classDecl, .interfaceDecl, .enumDecl]⟩,
    .functions,
    ⟨"variables", [.constDecl, .parameterDecl]⟩,
    ⟨"fields", [.fieldDecl, .enumeratorDecl]⟩]⟩
  builtinTypes := [
    "boolean", "byte", "char", "short", "int", "long", "float", "double", "void", "String",
    "Object", "Integer", "Long", "Short", "Byte", "Character", "Boolean", "Float", "Double",
    "List", "Map", "Set", "Optional"]
  autoSelect := [
    "identifier", "type_identifier", "integral_type", "floating_point_type"]

end CodeAtlas.Definition
