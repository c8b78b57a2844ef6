import PrototypeScan.Grammar.Phrase

/-!
Markup elements inside of expressions.
-/
namespace PrototypeScan.JavaScript
open Grammar Phrase

def markupRules : List (String × Phrase) := [
  ("_jsx_element", anyOf [sym "jsx_element", sym "jsx_self_closing_element"]),
  ("jsx_element",
    inOrder [
      field "open_tag" (sym "jsx_opening_element"), zeroOrMore (sym "_jsx_child"),
      field "close_tag" (sym "jsx_closing_element")]),
  ("jsx_expression",
    inOrder [
      lit "\x7b", maybe (anyOf [sym "expression", sym "sequence_expression", sym "spread_element"]),
      lit "\x7d"]),
  ("_jsx_child",
    anyOf [
      sym "jsx_text", sym "html_character_reference", sym "_jsx_element", sym "jsx_expression"]),
  ("jsx_opening_element",
    weighted (-1) (inOrder [
      lit "<",
      maybe (inOrder [
        field "name" (sym "_jsx_element_name"),
        zeroOrMore (field "attribute" (sym "_jsx_attribute"))]),
      lit ">"])),
  ("_jsx_identifier", anyOf [shownAs "identifier" (sym "jsx_identifier"), sym "identifier"]),
  ("nested_identifier",
    level "member" (inOrder [
      field "object" (
        anyOf [sym "identifier", shownAs "member_expression" (sym "nested_identifier")]),
      lit ".", field "property" (shownAs "property_identifier" (sym "identifier"))])),
  ("jsx_namespace_name", inOrder [sym "_jsx_identifier", lit ":", sym "_jsx_identifier"]),
  ("_jsx_element_name",
    anyOf [
      sym "_jsx_identifier", shownAs "member_expression" (sym "nested_identifier"),
      sym "jsx_namespace_name"]),
  ("jsx_closing_element",
    inOrder [lit "</", maybe (field "name" (sym "_jsx_element_name")), lit ">"]),
  ("jsx_self_closing_element",
    inOrder [
      lit "<", field "name" (sym "_jsx_element_name"),
      zeroOrMore (field "attribute" (sym "_jsx_attribute")), lit "/>"]),
  ("_jsx_attribute", anyOf [sym "jsx_attribute", sym "jsx_expression"]),
  ("_jsx_attribute_name",
    anyOf [shownAs "property_identifier" (sym "_jsx_identifier"), sym "jsx_namespace_name"]),
  ("jsx_attribute",
    inOrder [sym "_jsx_attribute_name", maybe (inOrder [lit "=", sym "_jsx_attribute_value"])]),
  ("_jsx_string",
    anyOf [
      inOrder [
        lit "\"",
        zeroOrMore (anyOf [
          shownAs "string_fragment" (sym "unescaped_double_jsx_string_fragment"),
          sym "html_character_reference"]),
        lit "\""],
      inOrder [
        lit "'",
        zeroOrMore (anyOf [
          shownAs "string_fragment" (sym "unescaped_single_jsx_string_fragment"),
          sym "html_character_reference"]),
        lit "'"]]),
  ("_jsx_attribute_value",
    anyOf [shownAs "string" (sym "_jsx_string"), sym "jsx_expression", sym "_jsx_element"])]

end PrototypeScan.JavaScript
