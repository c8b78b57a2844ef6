import PrototypeScan.Files.Path

/-!
Kinds of scripts, and which files are scripts by the extensions of their paths.
-/
namespace PrototypeScan

/-- Whether a source is a module or a plain script. -/
inductive SourceType where
  | module
  | script
  deriving DecidableEq, Repr

namespace SourceType

def text : SourceType → String
  | module => "module"
  | script => "script"

def ofText? (s : String) : Option SourceType :=
  if s = "module" then some module else if s = "script" then some script else none

end SourceType

/-- How a source is to be read. -/
structure ScriptKind where
  sourceType : SourceType
  jsx : Bool
  deriving DecidableEq, Repr

/-- A module without markup. -/
def ScriptKind.default : ScriptKind := ⟨.module, false⟩

namespace ScriptKind

/-- The kind of scripts with an extension, upper and lower case alike. Two extensions say which source
type they hold; for the others `standard` holds. -/
def ofExtension? (standard : SourceType) (extension : String) : Option ScriptKind :=
  let e := String.ofList (extension.toList.map Char.toLower)
  if e = "mjs" then some ⟨.module, false⟩
  else if e = "cjs" then some ⟨.script, false⟩
  else if e = "js" then some ⟨standard, false⟩
  else if e = "jsx" then some ⟨standard, true⟩
  else none

def ofPath? (standard : SourceType) (path : String) : Option ScriptKind :=
  (Path.extension? path).bind (ofExtension? standard)

/-- Whether a path is that of a JSON document. -/
def isDocument (path : String) : Bool :=
  (Path.extension? path).any fun e => e.toList.map Char.toLower = "json".toList

end ScriptKind

end PrototypeScan
