import PrototypeScan.Rule.Pollution
import PrototypeScan.Scan.Tree
import PrototypeScan.Script.Basic

/-!
The settings of a scan, in three sections, with their built-in values.
-/
namespace PrototypeScan

/-- How JavaScript sources are parsed: in this process, or by a program that is run for each source. -/
inductive Frontend where
  | treeSitter
  | espree
  deriving DecidableEq, Repr

namespace Frontend

def text : Frontend → String
  | treeSitter => "tree_sitter"
  | espree => "espree"

def ofText? (s : String) : Option Frontend := [treeSitter, espree].find? (·.text = s)

end Frontend

namespace Config

structure Logging where
  level : String
  format : String
  deriving DecidableEq, Repr

structure Scan where
  maxDepth : Nat
  exclude : List String
  maxFileSize : Option Nat
  maxConcurrent : Nat
  limits : PrototypeScan.Scan.Limits
  properties : List String
  deriving DecidableEq, Repr

structure Parser where
  frontend : Frontend
  executable : String
  modulesDirectory : Option String
  timeout : Nat
  ecmaVersion : String
  sourceType : SourceType
  deriving DecidableEq, Repr

namespace Logging

def default : Logging := ⟨"warn", "pretty"⟩

end Logging

namespace Scan

def default : Scan where
  maxDepth := 10
  exclude := ["node_modules", ".git", "target", "dist", "build", "vendor"]
  maxFileSize := some (2 * 1024 * 1024)
  maxConcurrent := 4
  limits := ⟨none, none⟩
  properties := Pollution.defaultProperties

end Scan

namespace Parser

def default : Parser where
  frontend := .treeSitter
  executable := "node"
  modulesDirectory := none
  timeout := 30
  ecmaVersion := "latest"
  sourceType := .module

end Parser

end Config

/-- The settings of a scan. -/
structure Config where
  logging : Config.Logging
  scan : Config.Scan
  parser : Config.Parser
  deriving DecidableEq, Repr

namespace Config

def default : Config := ⟨.default, .default, .default⟩

/-- The keys of a section, in order. -/
def Logging.keys : List String := ["level", "format"]

def Scan.keys : List String := [
  "max_scan_depth", "exclude_patterns", "max_file_size_bytes", "max_concurrent_files",
  "max_tree_nodes", "max_tree_depth", "sensitive_properties"]

def Parser.keys : List String := [
  "frontend", "node_executable", "node_modules_dir", "timeout_seconds", "ecma_version",
  "default_source_type"]

def keys : List String := ["logging", "scan", "parser"]

end Config

end PrototypeScan
