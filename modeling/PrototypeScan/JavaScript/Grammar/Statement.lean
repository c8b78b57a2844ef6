import PrototypeScan.Grammar.Phrase

/-!
Statements.
-/
namespace PrototypeScan.JavaScript
open Grammar Phrase

def statementRules : List (String × Phrase) := [
  ("declaration",
    anyOf [
      sym "function_declaration", sym "generator_function_declaration", sym "class_declaration",
      sym "lexical_declaration", sym "variable_declaration"]),
  ("statement",
    anyOf [
      sym "export_statement", sym "import_statement", sym "debugger_statement",
      sym "expression_statement", sym "declaration", sym "statement_block", sym "if_statement",
      sym "switch_statement", sym "for_statement", sym "for_in_statement", sym "while_statement",
      sym "do_statement", sym "try_statement", sym "with_statement", sym "break_statement",
      sym "continue_statement", sym "return_statement", sym "throw_statement",
      sym "empty_statement", sym "labeled_statement"]),
  ("expression_statement", inOrder [sym "_expressions", sym "_semicolon"]),
  ("variable_declaration",
    inOrder [lit "var", commaSep1 (sym "variable_declarator"), sym "_semicolon"]),
  ("lexical_declaration",
    inOrder [
      field "kind" (anyOf [lit "let", lit "const"]), commaSep1 (sym "variable_declarator"),
      sym "_semicolon"]),
  ("variable_declarator",
    inOrder [
      field "name" (anyOf [sym "identifier", sym "_destructuring_pattern"]),
      maybe (sym "_initializer")]),
  ("statement_block",
    rightward (inOrder [
      lit "\x7b", zeroOrMore (sym "statement"), lit "\x7d", maybe (sym "_automatic_semicolon")])),
  ("else_clause", inOrder [lit "else", sym "statement"]),
  ("if_statement",
    rightward (inOrder [
      lit "if", field "condition" (sym "parenthesized_expression"),
      field "consequence" (sym "statement"), maybe (field "alternative" (sym "else_clause"))])),
  ("switch_statement",
    inOrder [
      lit "switch", field "value" (sym "parenthesized_expression"),
      field "body" (sym "switch_body")]),
  ("for_statement",
    inOrder [
      lit "for", lit "(",
      anyOf [
        field "initializer" (anyOf [sym "lexical_declaration", sym "variable_declaration"]),
        inOrder [field "initializer" (sym "_expressions"), lit ";"],
        field "initializer" (sym "empty_statement")],
      field "condition" (anyOf [inOrder [sym "_expressions", lit ";"], sym "empty_statement"]),
      field "increment" (maybe (sym "_expressions")), lit ")", field "body" (sym "statement")]),
  ("for_in_statement",
    inOrder [lit "for", maybe (lit "await"), sym "_for_header", field "body" (sym "statement")]),
  ("_for_header",
    inOrder [
      lit "(",
      anyOf [
        field "left" (anyOf [sym "_lhs_expression", sym "parenthesized_expression"]),
        inOrder [
          field "kind" (lit "var"),
          field "left" (anyOf [sym "identifier", sym "_destructuring_pattern"]),
          maybe (sym "_initializer")],
        inOrder [
          field "kind" (anyOf [lit "let", lit "const"]),
          field "left" (anyOf [sym "identifier", sym "_destructuring_pattern"]),
          maybe (sym "_automatic_semicolon")]],
      field "operator" (anyOf [lit "in", lit "of"]), field "right" (sym "_expressions"), lit ")"]),
  ("while_statement",
    inOrder [
      lit "while", field "condition" (sym "parenthesized_expression"),
      field "body" (sym "statement")]),
  ("do_statement",
    rightward (inOrder [
      lit "do", field "body" (sym "statement"), lit "while",
      field "condition" (sym "parenthesized_expression"), maybe (sym "_semicolon")])),
  ("try_statement",
    inOrder [
      lit "try", field "body" (sym "statement_block"), maybe (field "handler" (sym "catch_clause")),
      maybe (field "finalizer" (sym "finally_clause"))]),
  ("with_statement",
    inOrder [
      lit "with", field "object" (sym "parenthesized_expression"), field "body" (sym "statement")]),
  ("break_statement",
    inOrder [
      lit "break", field "label" (maybe (shownAs "statement_identifier" (sym "identifier"))),
      sym "_semicolon"]),
  ("continue_statement",
    inOrder [
      lit "continue", field "label" (maybe (shownAs "statement_identifier" (sym "identifier"))),
      sym "_semicolon"]),
  ("debugger_statement", inOrder [lit "debugger", sym "_semicolon"]),
  ("return_statement", inOrder [lit "return", maybe (sym "_expressions"), sym "_semicolon"]),
  ("throw_statement", inOrder [lit "throw", sym "_expressions", sym "_semicolon"]),
  ("empty_statement", lit ";"),
  ("labeled_statement",
    weighted (-1) (inOrder [
      field "label" (
        shownAs "statement_identifier" (anyOf [sym "identifier", sym "_reserved_identifier"])),
      lit ":", field "body" (sym "statement")])),
  ("switch_body",
    inOrder [lit "\x7b", zeroOrMore (anyOf [sym "switch_case", sym "switch_default"]), lit "\x7d"]),
  ("switch_case",
    inOrder [
      lit "case", field "value" (sym "_expressions"), lit ":",
      field "body" (zeroOrMore (sym "statement"))]),
  ("switch_default", inOrder [lit "default", lit ":", field "body" (zeroOrMore (sym "statement"))]),
  ("catch_clause",
    inOrder [
      lit "catch",
      maybe (inOrder [
        lit "(", field "parameter" (anyOf [sym "identifier", sym "_destructuring_pattern"]),
        lit ")"]),
      field "body" (sym "statement_block")]),
  ("finally_clause", inOrder [lit "finally", field "body" (sym "statement_block")]),
  ("_semicolon", anyOf [sym "_automatic_semicolon", lit ";"])]

end PrototypeScan.JavaScript
