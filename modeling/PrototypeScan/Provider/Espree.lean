import PrototypeScan.Config.Conversion
import PrototypeScan.Estree.Document
import PrototypeScan.Json.Writer
import PrototypeScan.Provider.Basic

/-!
Trees from a program that reads a source and prints an ESTree document. The program is started with a
script for it and with options, and gets the source as its input.
-/
namespace PrototypeScan.Espree

/-- The script that is given to the program. -/
def script : String := "\n".intercalate [
  "",
  "const espree = require('espree');",
  "const options = JSON.parse(process.argv[1]);",
  "let code = '';",
  "process.stdin.setEncoding('utf8');",
  "process.stdin.on('data', (chunk) => \x7b code += chunk; \x7d);",
  "process.stdin.on('end', () => \x7b",
  "  try \x7b",
  "    const ast = espree.parse(code, Object.assign(\x7b\x7d, options, \x7b loc: true, range: true \x7d));",
  "    process.stdout.write(JSON.stringify(ast));",
  "  \x7d catch (err) \x7b",
  "    const where = err.lineNumber ? \x60 (line $\x7berr.lineNumber\x7d, column $\x7berr.column\x7d)\x60 : '';",
  "    process.stderr.write(\x60[ESPREE PARSE ERROR]: $\x7berr.message\x7d$\x7bwhere\x7d\\n\x60);",
  "    process.exit(1);",
  "  \x7d",
  "\x7d);",
  ""]

/-- The number that a version of the language is, if it is one of 32 bits. -/
def versionNumber? (version : String) : Option Nat :=
  (Setting.natOfText? version).filter (· < twoTo 32)

/-- The options for a source, as JSON. -/
def options (version : String) (kind : ScriptKind) : Json :=
  .object [
    ("ecmaVersion", match versionNumber? version with
      | some n => .ofNat n
      | none => .string version),
    ("sourceType", .string kind.sourceType.text),
    ("ecmaFeatures", .object [("jsx", .bool kind.jsx)])]

/-- The words that a program prints if it lacks the package. -/
def missingPackage : String := "Cannot find module 'espree'"

/-- Whether one text is part of another. -/
def isInside (part : List Char) : List Char → Bool
  | [] => part.isEmpty
  | c :: cs => part.isPrefixOf (c :: cs) || isInside part cs

/-- Asks the program for its version, to see whether it can be used. -/
def check (w : Workspace) (p : Config.Parser) : Except ParseError Unit :=
  match Program.run w none p.executable ["--version"] [] with
  | .error e => .error (.unavailable (.ofFileError p.executable e))
  | .ok outcome =>
    if outcome.ending.isSuccess then .ok ()
    else .error (.unavailable (.noVersion p.executable outcome.ending))

/-- What a run of the program gives for the source at a path. -/
def tree (p : Config.Parser) (path : String) (outcome : Program.Outcome) :
    Except ParseError (Value Node) :=
  let errors := Text.decodeLossy outcome.errors
  if 1000 * p.timeout ≤ outcome.elapsed then .error (.timeout p.timeout)
  else if outcome.ending.isSuccess then
    match Estree.readBytes outcome.output with
    | .ok v => .ok v
    | .error e => .error (.invalidJson path e)
  else if isInside missingPackage.toList errors.toList then .error (.unavailable .noPackage)
  else .error (.failed path (Text.trim errors))

/-- The tree of a source. -/
def parse (w : Workspace) (p : Config.Parser) (path source : String) (kind : ScriptKind) :
    Except ParseError (Value Node) :=
  let arguments := ["-e", script, (options p.ecmaVersion kind).compact]
  match Program.run w p.modulesDirectory p.executable arguments source.toUTF8.toList with
  | .error e => .error (.unavailable (.ofFileError p.executable e))
  | .ok outcome => tree p path outcome

/-- The program that settings name, as a provider. -/
def provider (p : Config.Parser) : Provider where
  name := "espree"
  check w := check w p
  parse w := parse w p

end PrototypeScan.Espree
