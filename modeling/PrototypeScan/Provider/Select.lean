import PrototypeScan.JavaScript.Estree
import PrototypeScan.Provider.Espree

/-!
The providers that settings can ask for.
-/
namespace PrototypeScan.Provider

/-- The grammar in this library. The message leaves out the place of the error (` at line 1, column 0`): which node
is the first wrong one depends on how a parser recovers from errors, and the one here ends at the first of them. -/
def treeSitter : Provider where
  name := "tree-sitter"
  parse _ path source kind := match JavaScript.program? kind.sourceType source with
    | some n => .ok (.node n)
    | none => .error (.failed path "syntax error")

/-- Sources that are documents with a tree. -/
def estreeJson : Provider where
  name := "estree-json"
  parse _ path source _ := match Estree.read source with
    | .ok v => .ok v
    | .error e => .error (.invalidJson path e)

inductive Kind where
  | treeSitter
  /-- a program that is run for each source -/
  | espree
  | estreeJson
  deriving DecidableEq, Repr

/-- The kind of provider for a frontend; sources that are trees already need none. -/
def Kind.select (preParsed : Bool) (frontend : Frontend) : Kind :=
  if preParsed then estreeJson
  else match frontend with
    | .treeSitter => treeSitter
    | .espree => espree

def ofKind (settings : Config.Parser) : Kind → Provider
  | .treeSitter => treeSitter
  | .espree => Espree.provider settings
  | .estreeJson => estreeJson

end PrototypeScan.Provider
