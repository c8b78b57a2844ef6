import PrototypeScan.Grammar.Phrase

/-!
Expressions and patterns.
-/
namespace PrototypeScan.JavaScript
open Grammar Phrase

/-- Binary operators, with the level at which they bind. -/
def binaryOperators : List (String × String) := [
  ("&&", "logical_and"), ("||", "logical_or"), (">>", "binary_shift"), (">>>", "binary_shift"),
  ("<<", "binary_shift"), ("&", "bitwise_and"), ("^", "bitwise_xor"), ("|", "bitwise_or"),
  ("+", "binary_plus"), ("-", "binary_plus"), ("*", "binary_times"), ("/", "binary_times"),
  ("%", "binary_times"), ("**", "binary_exp"), ("<", "binary_relation"), ("<=", "binary_relation"),
  ("==", "binary_equality"), ("===", "binary_equality"), ("!=", "binary_equality"),
  ("!==", "binary_equality"), (">=", "binary_relation"), (">", "binary_relation"),
  ("??", "ternary"), ("instanceof", "binary_relation"), ("in", "binary_relation")]

/-- An operation on two expressions. Powers group to the right; a private name may be looked for in an
object. -/
def binary (operator : String × String) : Phrase :=
  let first := if operator.1 = "in"
    then anyOf [sym "expression", sym "private_property_identifier"] else sym "expression"
  let body := inOrder [
    field "left" first, field "operator" (lit operator.1), field "right" (sym "expression")]
  if operator.1 = "**" then right operator.2 body else left operator.2 body

def expressionRules : List (String × Phrase) := [
  ("parenthesized_expression", inOrder [lit "(", sym "_expressions", lit ")"]),
  ("_expressions", anyOf [sym "expression", sym "sequence_expression"]),
  ("expression",
    anyOf [
      sym "primary_expression", sym "_jsx_element", sym "assignment_expression",
      sym "augmented_assignment_expression", sym "await_expression", sym "unary_expression",
      sym "binary_expression", sym "ternary_expression", sym "update_expression",
      sym "new_expression", sym "yield_expression"]),
  ("primary_expression",
    anyOf [
      sym "subscript_expression", sym "member_expression", sym "parenthesized_expression",
      sym "_identifier", shownAs "identifier" (sym "_reserved_identifier"), sym "this", sym "super",
      sym "number", sym "string", sym "template_string", sym "regex", sym "true", sym "false",
      sym "null", sym "object", sym "array", sym "function_expression", sym "arrow_function",
      sym "generator_function", sym "class", sym "meta_property", sym "call_expression"]),
  ("yield_expression",
    rightward (
      inOrder [
        lit "yield", anyOf [inOrder [lit "*", sym "expression"], maybe (sym "expression")]])),
  ("object",
    level "object" (inOrder [
      lit "\x7b",
      commaSep (
        maybe (anyOf [
          sym "pair", sym "spread_element", sym "method_definition",
          shownAs "shorthand_property_identifier" (
            anyOf [sym "identifier", sym "_reserved_identifier"])])),
      lit "\x7d"])),
  ("object_pattern",
    level "object" (inOrder [
      lit "\x7b",
      commaSep (
        maybe (anyOf [
          sym "pair_pattern", sym "rest_pattern", sym "object_assignment_pattern",
          shownAs "shorthand_property_identifier_pattern" (
            anyOf [sym "identifier", sym "_reserved_identifier"])])),
      lit "\x7d"])),
  ("assignment_pattern",
    inOrder [field "left" (sym "pattern"), lit "=", field "right" (sym "expression")]),
  ("object_assignment_pattern",
    inOrder [
      field "left" (anyOf [
        shownAs "shorthand_property_identifier_pattern" (
          anyOf [sym "_reserved_identifier", sym "identifier"]),
        sym "_destructuring_pattern"]),
      lit "=", field "right" (sym "expression")]),
  ("array",
    inOrder [lit "[", commaSep (maybe (anyOf [sym "expression", sym "spread_element"])), lit "]"]),
  ("array_pattern",
    inOrder [lit "[", commaSep (maybe (anyOf [sym "pattern", sym "assignment_pattern"])), lit "]"]),
  ("call_expression",
    anyOf [
      level "call" (inOrder [
        field "function" (anyOf [sym "expression", sym "import"]),
        field "arguments" (sym "arguments")]),
      level "template_call" (inOrder [
        field "function" (anyOf [sym "primary_expression", sym "new_expression"]),
        field "arguments" (sym "template_string")]),
      level "member" (inOrder [
        field "function" (sym "primary_expression"), field "optional_chain" (sym "optional_chain"),
        field "arguments" (sym "arguments")])]),
  ("new_expression",
    right "new" (inOrder [
      lit "new", field "constructor" (anyOf [sym "primary_expression", sym "new_expression"]),
      field "arguments" (maybe (weighted 1 (sym "arguments")))])),
  ("await_expression", level "unary_void" (inOrder [lit "await", sym "expression"])),
  ("member_expression",
    level "member" (inOrder [
      field "object" (anyOf [sym "expression", sym "primary_expression", sym "import"]),
      anyOf [lit ".", field "optional_chain" (sym "optional_chain")],
      field "property" (anyOf [
        sym "private_property_identifier", shownAs "property_identifier" (sym "identifier")])])),
  ("subscript_expression",
    right "member" (inOrder [
      field "object" (anyOf [sym "expression", sym "primary_expression"]),
      maybe (field "optional_chain" (sym "optional_chain")), lit "[",
      field "index" (sym "_expressions"), lit "]"])),
  ("_lhs_expression",
    anyOf [
      sym "member_expression", sym "subscript_expression", sym "_identifier",
      shownAs "identifier" (sym "_reserved_identifier"), sym "_destructuring_pattern"]),
  ("assignment_expression",
    right "assign" (inOrder [
      field "left" (anyOf [sym "parenthesized_expression", sym "_lhs_expression"]), lit "=",
      field "right" (sym "expression")])),
  ("_augmented_assignment_lhs",
    anyOf [
      sym "member_expression", sym "subscript_expression",
      shownAs "identifier" (sym "_reserved_identifier"), sym "identifier",
      sym "parenthesized_expression"]),
  ("augmented_assignment_expression",
    right "assign" (inOrder [
      field "left" (sym "_augmented_assignment_lhs"),
      field "operator" (anyOf [
        lit "+=", lit "-=", lit "*=", lit "/=", lit "%=", lit "^=", lit "&=", lit "|=", lit ">>=",
        lit ">>>=", lit "<<=", lit "**=", lit "&&=", lit "||=", lit "??="]),
      field "right" (sym "expression")])),
  ("_initializer", inOrder [lit "=", field "value" (sym "expression")]),
  ("_destructuring_pattern", anyOf [sym "object_pattern", sym "array_pattern"]),
  ("spread_element", inOrder [lit "...", sym "expression"]),
  ("ternary_expression",
    right "ternary" (inOrder [
      field "condition" (sym "expression"), shownAsToken "?" (sym "_ternary_qmark"),
      field "consequence" (sym "expression"), lit ":", field "alternative" (sym "expression")])),
  ("binary_expression", anyOf (binaryOperators.map binary)),
  ("unary_expression",
    left "unary_void" (inOrder [
      field "operator" (
        anyOf [lit "!", lit "~", lit "-", lit "+", lit "typeof", lit "void", lit "delete"]),
      field "argument" (sym "expression")])),
  ("update_expression",
    leftward (anyOf [
      inOrder [field "argument" (sym "expression"), field "operator" (anyOf [lit "++", lit "--"])],
      inOrder [
        field "operator" (anyOf [lit "++", lit "--"]), field "argument" (sym "expression")]])),
  ("sequence_expression", rightward (commaSep1 (sym "expression"))),
  ("string",
    anyOf [
      inOrder [
        lit "\"",
        zeroOrMore (anyOf [
          shownAs "string_fragment" (sym "unescaped_double_string_fragment"),
          sym "escape_sequence"]),
        lit "\""],
      inOrder [
        lit "'",
        zeroOrMore (anyOf [
          shownAs "string_fragment" (sym "unescaped_single_string_fragment"),
          sym "escape_sequence"]),
        lit "'"]]),
  ("template_string",
    inOrder [
      lit "`",
      zeroOrMore (anyOf [
        shownAs "string_fragment" (sym "_template_chars"), sym "escape_sequence",
        sym "template_substitution"]),
      lit "`"]),
  ("template_substitution", inOrder [lit "$\x7b", sym "_expressions", lit "\x7d"]),
  ("regex",
    inOrder [
      lit "/", field "pattern" (sym "regex_pattern"), sym "regex_end",
      maybe (field "flags" (sym "regex_flags"))]),
  ("_identifier", anyOf [sym "undefined", sym "identifier"]),
  ("meta_property",
    anyOf [
      inOrder [lit "new", lit ".", lit "target"], inOrder [lit "import", lit ".", lit "meta"]]),
  ("arguments",
    inOrder [lit "(", commaSep (maybe (anyOf [sym "expression", sym "spread_element"])), lit ")"]),
  ("pattern", weighted (-1) (anyOf [sym "_lhs_expression", sym "rest_pattern"])),
  ("rest_pattern", rightward (inOrder [lit "...", sym "_lhs_expression"])),
  ("pair", inOrder [field "key" (sym "_property_name"), lit ":", field "value" (sym "expression")]),
  ("pair_pattern",
    inOrder [
      field "key" (sym "_property_name"), lit ":",
      field "value" (anyOf [sym "pattern", sym "assignment_pattern"])]),
  ("_property_name",
    anyOf [
      shownAs "property_identifier" (anyOf [sym "identifier", sym "_reserved_identifier"]),
      sym "private_property_identifier", sym "string", sym "number", sym "computed_property_name"]),
  ("computed_property_name", inOrder [lit "[", sym "expression", lit "]"]),
  ("_reserved_identifier",
    anyOf [lit "get", lit "set", lit "async", lit "static", lit "export", lit "let"])]

end PrototypeScan.JavaScript
