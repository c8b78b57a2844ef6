import PrototypeScan.Files.Basic
import PrototypeScan.Script.Basic

/-!
The files of a directory that are scanned: parents before what is in them, and the entries of each
directory by name.
-/
namespace PrototypeScan

/-- A file to scan. -/
structure SourceFile where
  path : String
  kind : ScriptKind
  deriving DecidableEq, Repr

/-- What is listed: down to which depth, without which directories, and whether ESTree documents are
listed in place of scripts. -/
structure Listing where
  maxDepth : Nat
  exclude : List String
  sourceType : SourceType
  preParsed : Bool
  deriving DecidableEq, Repr

namespace Listing

/-- The directories left out where nothing else is stated. -/
def standardExclude : List String := ["node_modules", ".git", "target"]

/-- The file at a path, if it is one to scan. -/
def classify? (l : Listing) (path : String) : Option SourceFile :=
  if l.preParsed then
    if ScriptKind.isDocument path then some ⟨path, .default⟩ else none
  else (ScriptKind.ofPath? l.sourceType path).map (⟨path, ·⟩)

/-- Entries by name, in the order of their code points. -/
def byName (entries : List (String × FileTree)) : List (String × FileTree) :=
  entries.mergeSort fun a b => decide (a.1 ≤ b.1)

mutual

/-- A tree with the entries of all directories by name. -/
def sorted : FileTree → FileTree
  | .file f => .file f
  | .device => .device
  | .directory es => .directory (byName (sortedEntries es))

def sortedEntries : List (String × FileTree) → List (String × FileTree)
  | [] => []
  | e :: es => sortedEntry e :: sortedEntries es

def sortedEntry : String × FileTree → String × FileTree
  | (name, t) => (name, sorted t)

end

mutual

/-- The files of a tree at a path, `depth` levels below where the listing starts. -/
def visit (l : Listing) (depth : Nat) (path : String) : FileTree → List SourceFile
  | .file _ => (l.classify? path).toList
  | .device => []
  | .directory es => if depth < l.maxDepth then visitEntries l depth path es else []

def visitEntries (l : Listing) (depth : Nat) (path : String) :
    List (String × FileTree) → List SourceFile
  | [] => []
  | e :: es => visitEntry l depth path e ++ visitEntries l depth path es

def visitEntry (l : Listing) (depth : Nat) (path : String) :
    String × FileTree → List SourceFile
  | (name, t) =>
    if t.isDirectory && l.exclude.contains name then []
    else visit l (depth + 1) (Path.below path name) t

end

/-- The files listed for a path. -/
def files (l : Listing) (w : Workspace) (root : String) : Except FileError (List SourceFile) :=
  (w.find root).map fun t => l.visit 0 root (sorted t)

end Listing

end PrototypeScan
