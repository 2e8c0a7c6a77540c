import CodeAtlas.Profile.Basic

/-!
The profile of Python.
-/

namespace CodeAtlas.Definition.Python

def structureQuery : String := "; language: python
; version: 1

(import_statement
  name: (_) @import @import.name)

(import_from_statement
  module_name: (_) @import.ref
  name: (_) @import @import.name)

(class_definition
  name: (identifier) @class.name
  superclasses: (argument_list)? @class.ref) @class

; Methods are declared before plain functions so they win on the same span.
(class_definition
  body: (block
    (function_definition
      name: (identifier) @method.name
      return_type: (_)? @method.return) @method))

(class_definition
  body: (block
    (decorated_definition
      definition: (function_definition
        name: (identifier) @method.name
        return_type: (_)? @method.return) @method)))

(function_definition
  name: (identifier) @function.name
  return_type: (_)? @function.return) @function

(parameters
  (identifier) @parameter @parameter.name)

(parameters
  (typed_parameter
    (identifier) @parameter.name
    type: (_) @parameter.type) @parameter)

(parameters
  (default_parameter
    name: (identifier) @parameter.name) @parameter)

(parameters
  (typed_default_parameter
    name: (identifier) @parameter.name
    type: (_) @parameter.type) @parameter)

(parameters
  (list_splat_pattern
    (identifier) @parameter.name) @parameter)

(parameters
  (dictionary_splat_pattern
    (identifier) @parameter.name) @parameter)

(parameters
  (typed_parameter
    [(list_splat_pattern (identifier) @parameter.name)
     (dictionary_splat_pattern (identifier) @parameter.name)]
    type: (_) @parameter.type) @parameter)

(class_definition
  body: (block
    (expression_statement
      (assignment
        left: (identifier) @field.name
        type: (_)? @field.type) @field)))

(module
  (expression_statement
    (assignment
      left: (identifier) @variable.name
      type: (_)? @variable.type) @variable))
"

def scopeQuery : String := "; language: python
; version: 1

(class_definition) @scope
(function_definition) @scope
(lambda) @scope
"

def hoverableQuery : String := "; language: python
; version: 1

(identifier) @hover
"

def classQuery : String := "; language: python
; version: 1

(class_definition
  name: (identifier) @name) @class
"

def methodQuery : String := "; language: python
; version: 1

(class_definition
  body: (block
    (function_definition
      name: (identifier) @name) @method))

(class_definition
  body: (block
    (decorated_definition
      definition: (function_definition
        name: (identifier) @name) @method)))
"

def docCommentQuery : String := "; language: python
; version: 1

(comment) @doc
"

def signatureQuery : String := "; language: python
; version: 1

(class_definition
  body: (block
    (function_definition
      name: (identifier) @name
      parameters: (parameters) @params
      return_type: (_)? @return) @signature))

(class_definition
  body: (block
    (decorated_definition
      definition: (function_definition
        name: (identifier) @name
        parameters: (parameters) @params
        return_type: (_)? @return) @signature)))
"

end CodeAtlas.Definition.Python

namespace CodeAtlas.Definition

open Python in
def python : Definition where
  id := "python"
  aliases := ["py"]
  extensions := ["py", "pyi"]
  grammars := [.ofHandle .python]
  extensionGrammars := []
  testRule := .anyOf [.named "conftest.py", .both (.nameStarts "test_") (.nameEnds ".py"),
    .nameEnds "_test.py", .inDirectory "tests"]
  queries := [
    (.structural, structureQuery),
    (.scope, scopeQuery),
    (.hoverable, hoverableQuery),
    (.classes, classQuery),
    (.methods, methodQuery),
    (.docComment, docCommentQuery),
    (.signature, signatureQuery)]
  taxonomy := ⟨[
    .modules,
    ⟨"types", [.classDecl]⟩,
    .functions,
    ⟨"variables", [.variableDecl, .parameterDecl]⟩,
    ⟨"fields", [.fieldDecl]⟩]⟩
  builtinTypes := [
    "int", "float", "complex", "str", "bytes", "bytearray", "bool", "list", "dict", "set",
    "frozenset", "tuple", "object", "type", "None", "Any", "Optional", "Union", "List", "Dict",
    "Set", "Tuple", "Callable"]
  autoSelect := [
    "identifier", "dotted_name"]

end CodeAtlas.Definition
