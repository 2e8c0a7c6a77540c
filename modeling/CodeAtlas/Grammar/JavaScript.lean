import CodeAtlas.Grammar.Vocabulary

/-!
The vocabulary of the JavaScript grammar.
-/

namespace CodeAtlas.Vocabulary

def javascript : Vocabulary where
  kinds := [
    "arguments", "array", "array_pattern", "arrow_function", "assignment_expression",
    "assignment_pattern", "augmented_assignment_expression", "await_expression",
    "binary_expression", "break_statement", "call_expression", "catch_clause", "class",
    "class_body", "class_declaration", "class_heritage", "class_static_block", "comment",
    "computed_property_name", "continue_statement", "debugger_statement", "declaration",
    "decorator", "do_statement", "else_clause", "empty_statement", "escape_sequence",
    "export_clause", "export_specifier", "export_statement", "expression", "expression_statement",
    "false", "field_definition", "finally_clause", "for_in_statement", "for_statement",
    "formal_parameters", "function_declaration", "function_expression", "generator_function",
    "generator_function_declaration", "hash_bang_line", "html_character_reference",
    "html_comment", "identifier", "if_statement", "import", "import_attribute", "import_clause",
    "import_specifier", "import_statement", "jsx_attribute", "jsx_closing_element", "jsx_element",
    "jsx_expression", "jsx_namespace_name", "jsx_opening_element", "jsx_self_closing_element",
    "jsx_text", "labeled_statement", "lexical_declaration", "member_expression", "meta_property",
    "method_definition", "named_imports", "namespace_export", "namespace_import",
    "new_expression", "null", "number", "object", "object_assignment_pattern", "object_pattern",
    "optional_chain", "pair", "pair_pattern", "parenthesized_expression", "pattern",
    "primary_expression", "private_property_identifier", "program", "property_identifier",
    "regex", "regex_flags", "regex_pattern", "rest_pattern", "return_statement",
    "sequence_expression", "shorthand_property_identifier",
    "shorthand_property_identifier_pattern", "spread_element", "statement", "statement_block",
    "statement_identifier", "string", "string_fragment", "subscript_expression", "super",
    "switch_body", "switch_case", "switch_default", "switch_statement", "template_string",
    "template_substitution", "ternary_expression", "this", "throw_statement", "true",
    "try_statement", "unary_expression", "undefined", "update_expression", "variable_declaration",
    "variable_declarator", "while_statement", "with_statement", "yield_expression"]
  fields := [
    "alias", "alternative", "argument", "arguments", "attribute", "body", "close_tag",
    "condition", "consequence", "constructor", "declaration", "decorator", "finalizer", "flags",
    "function", "handler", "increment", "index", "initializer", "key", "kind", "label", "left",
    "member", "name", "object", "open_tag", "operator", "parameter", "parameters", "pattern",
    "property", "right", "source", "template", "value"]
  tokens := [
    "\"", "$\x7b", "'", "(", ")", "*", ",", ".", "...", "/", "/>", ":", ";", "<", "</", "=", "=>",
    ">", "@", "[", "]", "`", "as", "async", "break", "class", "const", "default", "export",
    "extends", "for", "from", "function", "get", "if", "import", "let", "new", "of", "return",
    "set", "static", "var", "yield", "\x7b", "\x7d"]

end CodeAtlas.Vocabulary
