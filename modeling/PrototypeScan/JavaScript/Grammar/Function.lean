import PrototypeScan.Grammar.Phrase

/-!
Functions and classes.
-/
namespace PrototypeScan.JavaScript
open Grammar Phrase

def functionRules : List (String × Phrase) := [
  ("class",
    level "literal" (inOrder [
      zeroOrMore (field "decorator" (sym "decorator")), lit "class",
      field "name" (maybe (sym "identifier")), maybe (sym "class_heritage"),
      field "body" (sym "class_body")])),
  ("class_declaration",
    level "declare" (inOrder [
      zeroOrMore (field "decorator" (sym "decorator")), lit "class",
      field "name" (sym "identifier"), maybe (sym "class_heritage"),
      field "body" (sym "class_body"), maybe (sym "_automatic_semicolon")])),
  ("class_heritage", inOrder [lit "extends", sym "expression"]),
  ("function_expression",
    level "literal" (inOrder [
      maybe (lit "async"), lit "function", field "name" (maybe (sym "identifier")),
      sym "_call_signature", field "body" (sym "statement_block")])),
  ("function_declaration",
    right "declare" (inOrder [
      maybe (lit "async"), lit "function", field "name" (sym "identifier"), sym "_call_signature",
      field "body" (sym "statement_block"), maybe (sym "_automatic_semicolon")])),
  ("generator_function",
    level "literal" (inOrder [
      maybe (lit "async"), lit "function", lit "*", field "name" (maybe (sym "identifier")),
      sym "_call_signature", field "body" (sym "statement_block")])),
  ("generator_function_declaration",
    right "declare" (inOrder [
      maybe (lit "async"), lit "function", lit "*", field "name" (sym "identifier"),
      sym "_call_signature", field "body" (sym "statement_block"),
      maybe (sym "_automatic_semicolon")])),
  ("arrow_function",
    inOrder [
      maybe (lit "async"),
      anyOf [
        field "parameter" (
          anyOf [shownAs "identifier" (sym "_reserved_identifier"), sym "identifier"]),
        sym "_call_signature"],
      lit "=>", field "body" (anyOf [sym "expression", sym "statement_block"])]),
  ("_call_signature", field "parameters" (sym "formal_parameters")),
  ("_formal_parameter", anyOf [sym "pattern", sym "assignment_pattern"]),
  ("decorator",
    inOrder [
      lit "@",
      anyOf [
        sym "identifier", shownAs "member_expression" (sym "decorator_member_expression"),
        shownAs "call_expression" (sym "decorator_call_expression")]]),
  ("decorator_member_expression",
    level "member" (inOrder [
      field "object" (
        anyOf [sym "identifier", shownAs "member_expression" (sym "decorator_member_expression")]),
      lit ".", field "property" (shownAs "property_identifier" (sym "identifier"))])),
  ("decorator_call_expression",
    level "call" (inOrder [
      field "function" (
        anyOf [sym "identifier", shownAs "member_expression" (sym "decorator_member_expression")]),
      field "arguments" (sym "arguments")])),
  ("class_body",
    inOrder [
      lit "\x7b",
      zeroOrMore (anyOf [
        inOrder [field "member" (sym "method_definition"), maybe (lit ";")],
        inOrder [field "member" (sym "field_definition"), sym "_semicolon"],
        field "member" (sym "class_static_block"), lit ";"]),
      lit "\x7d"]),
  ("field_definition",
    inOrder [
      zeroOrMore (field "decorator" (sym "decorator")), maybe (lit "static"),
      field "property" (sym "_property_name"), maybe (sym "_initializer")]),
  ("formal_parameters",
    inOrder [
      lit "(", maybe (inOrder [commaSep1 (sym "_formal_parameter"), maybe (lit ",")]), lit ")"]),
  ("class_static_block",
    inOrder [
      lit "static", maybe (sym "_automatic_semicolon"), field "body" (sym "statement_block")]),
  ("method_definition",
    inOrder [
      zeroOrMore (field "decorator" (sym "decorator")),
      maybe (anyOf [lit "static", shownAsToken "static get" (sym "static_get")]),
      maybe (lit "async"), maybe (anyOf [lit "get", lit "set", lit "*"]),
      field "name" (sym "_property_name"), field "parameters" (sym "formal_parameters"),
      field "body" (sym "statement_block")])]

end PrototypeScan.JavaScript
