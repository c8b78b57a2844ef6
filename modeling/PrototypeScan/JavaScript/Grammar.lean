import PrototypeScan.Grammar.ItemSet
import PrototypeScan.JavaScript.Lexical
import PrototypeScan.JavaScript.Grammar.Module
import PrototypeScan.JavaScript.Grammar.Statement
import PrototypeScan.JavaScript.Grammar.Expression
import PrototypeScan.JavaScript.Grammar.Function
import PrototypeScan.JavaScript.Grammar.Markup

/-!
The grammar of JavaScript with markup elements. It accepts modules and scripts alike, and everything
that only a later check could refuse.
-/
namespace PrototypeScan.JavaScript
open PrototypeScan.Grammar

/-- Binding strengths, each ladder from the tightest to the loosest. -/
def ladders : List (List Rung) := [
  [.level "member", .level "template_call", .level "call", .rule "update_expression",
    .level "unary_void", .level "binary_exp", .level "binary_times", .level "binary_plus",
    .level "binary_shift", .level "binary_compare", .level "binary_relation",
    .level "binary_equality", .level "bitwise_and", .level "bitwise_xor", .level "bitwise_or",
    .level "logical_and", .level "logical_or", .level "ternary", .rule "sequence_expression",
    .rule "arrow_function"],
  [.level "assign", .rule "primary_expression"],
  [.level "member", .level "template_call", .level "new", .level "call", .rule "expression"],
  [.level "declare", .level "literal"],
  [.rule "primary_expression", .rule "statement_block", .level "object"],
  [.rule "meta_property", .rule "import"],
  [.rule "import_statement", .rule "import"],
  [.rule "export_statement", .rule "primary_expression"],
  [.rule "lexical_declaration", .rule "primary_expression"]]

def grammar : Grammar where
  start := "program"
  tokens := tokens
  rules := moduleRules ++ statementRules ++ expressionRules ++ functionRules ++ markupRules
  transparent := ["statement", "declaration", "expression", "primary_expression", "pattern"]
  inlined := [
    "_call_signature", "_formal_parameter", "_expressions", "_semicolon", "_identifier",
    "_reserved_identifier", "_jsx_attribute", "_jsx_element_name", "_jsx_child", "_jsx_element",
    "_jsx_attribute_name", "_jsx_attribute_value", "_jsx_identifier", "_lhs_expression"]
  ladders := ladders
  word := "identifier"

/-- The grammar, ready for parsing. -/
def tables : Tables := .ofGrammar grammar

end PrototypeScan.JavaScript
