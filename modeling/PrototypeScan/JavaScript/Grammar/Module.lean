import PrototypeScan.Grammar.Phrase

/-!
Modules: what a source imports and exports, and the program as a whole.
-/
namespace PrototypeScan.JavaScript
open Grammar Phrase

def moduleRules : List (String × Phrase) := [
  ("program", inOrder [maybe (sym "hash_bang_line"), zeroOrMore (sym "statement")]),
  ("export_statement",
    anyOf [
      inOrder [
        lit "export",
        anyOf [
          inOrder [lit "*", sym "_from_clause"],
          inOrder [sym "namespace_export", sym "_from_clause"],
          inOrder [sym "export_clause", sym "_from_clause"], sym "export_clause"],
        sym "_semicolon"],
      inOrder [
        zeroOrMore (field "decorator" (sym "decorator")), lit "export",
        anyOf [
          field "declaration" (sym "declaration"),
          inOrder [
            lit "default",
            anyOf [
              field "declaration" (sym "declaration"),
              inOrder [field "value" (sym "expression"), sym "_semicolon"]]]]]]),
  ("namespace_export", inOrder [lit "*", lit "as", sym "_module_export_name"]),
  ("export_clause",
    inOrder [lit "\x7b", commaSep (sym "export_specifier"), maybe (lit ","), lit "\x7d"]),
  ("export_specifier",
    inOrder [
      field "name" (sym "_module_export_name"),
      maybe (inOrder [lit "as", field "alias" (sym "_module_export_name")])]),
  ("_module_export_name", anyOf [sym "identifier", sym "string"]),
  ("import", lit "import"),
  ("import_statement",
    inOrder [
      lit "import",
      anyOf [inOrder [sym "import_clause", sym "_from_clause"], field "source" (sym "string")],
      maybe (sym "import_attribute"), sym "_semicolon"]),
  ("import_clause",
    anyOf [
      sym "namespace_import", sym "named_imports",
      inOrder [
        sym "identifier",
        maybe (inOrder [lit ",", anyOf [sym "namespace_import", sym "named_imports"]])]]),
  ("_from_clause", inOrder [lit "from", field "source" (sym "string")]),
  ("namespace_import", inOrder [lit "*", lit "as", sym "identifier"]),
  ("named_imports",
    inOrder [lit "\x7b", commaSep (sym "import_specifier"), maybe (lit ","), lit "\x7d"]),
  ("import_specifier",
    anyOf [
      field "name" (sym "identifier"),
      inOrder [
        field "name" (sym "_module_export_name"), lit "as", field "alias" (sym "identifier")]]),
  ("import_attribute", inOrder [lit "with", sym "object"])]

end PrototypeScan.JavaScript
