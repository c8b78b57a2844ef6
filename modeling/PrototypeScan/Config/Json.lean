import PrototypeScan.Config.Basic
import PrototypeScan.Json.Record

/-!
Settings as JSON. Writing gives every setting. In reading, a section or a setting that is missing has its
built-in value, keys that are not known are skipped, and every value has to have exactly its type. A
section, and the whole, may also be an array of the values in order.
-/
namespace PrototypeScan.Config

def Logging.toJson (l : Logging) : Json :=
  .object [("level", .string l.level), ("format", .string l.format)]

def Scan.toJson (s : Scan) : Json :=
  .object [
    ("max_scan_depth", .ofNat s.maxDepth),
    ("exclude_patterns", Json.ofTexts s.exclude),
    ("max_file_size_bytes", Json.ofOption .ofNat s.maxFileSize),
    ("max_concurrent_files", .ofNat s.maxConcurrent),
    ("max_tree_nodes", Json.ofOption .ofNat s.limits.nodes),
    ("max_tree_depth", Json.ofOption .ofNat s.limits.depth),
    ("sensitive_properties", Json.ofTexts s.properties)]

def Parser.toJson (p : Parser) : Json :=
  .object [
    ("frontend", .string p.frontend.text),
    ("node_executable", .string p.executable),
    ("node_modules_dir", Json.ofOption .string p.modulesDirectory),
    ("timeout_seconds", .ofNat p.timeout),
    ("ecma_version", .string p.ecmaVersion),
    ("default_source_type", .string p.sourceType.text)]

def toJson (c : Config) : Json :=
  .object [("logging", c.logging.toJson), ("scan", c.scan.toJson), ("parser", c.parser.toJson)]

def Logging.ofJson? (v : Json) : Option Logging := do
  let es ← Json.parts? Logging.keys v
  let d := Logging.default
  let level ← Json.part? es "level" Json.asString? (some d.level)
  let format ← Json.part? es "format" Json.asString? (some d.format)
  return ⟨level, format⟩

def Scan.ofJson? (v : Json) : Option Scan := do
  let es ← Json.parts? Scan.keys v
  let d := Scan.default
  let maxDepth ← Json.part? es "max_scan_depth" Json.asNat? (some d.maxDepth)
  let exclude ← Json.part? es "exclude_patterns" Json.texts? (some d.exclude)
  let maxFileSize ← Json.part? es "max_file_size_bytes" (Json.nullable? Json.asNat?) (some d.maxFileSize)
  let maxConcurrent ← Json.part? es "max_concurrent_files" Json.asNat? (some d.maxConcurrent)
  let nodes ← Json.part? es "max_tree_nodes" (Json.nullable? Json.asNat?) (some d.limits.nodes)
  let depth ← Json.part? es "max_tree_depth" (Json.nullable? Json.asNat?) (some d.limits.depth)
  let properties ← Json.part? es "sensitive_properties" Json.texts? (some d.properties)
  return ⟨maxDepth, exclude, maxFileSize, maxConcurrent, ⟨nodes, depth⟩, properties⟩

def Parser.ofJson? (v : Json) : Option Parser := do
  let es ← Json.parts? Parser.keys v
  let d := Parser.default
  let frontend ← Json.part? es "frontend" (Json.choice? Frontend.ofText?) (some d.frontend)
  let executable ← Json.part? es "node_executable" Json.asString? (some d.executable)
  let directory ← Json.part? es "node_modules_dir" (Json.nullable? Json.asString?) (some d.modulesDirectory)
  let timeout ← Json.part? es "timeout_seconds" Json.asNat? (some d.timeout)
  let ecmaVersion ← Json.part? es "ecma_version" Json.asString? (some d.ecmaVersion)
  let sourceType ← Json.part? es "default_source_type" (Json.choice? SourceType.ofText?) (some d.sourceType)
  return ⟨frontend, executable, directory, timeout, ecmaVersion, sourceType⟩

/-- Settings from JSON. -/
def ofJson? (v : Json) : Option Config := do
  let es ← Json.parts? keys v
  let d := Config.default
  let logging ← Json.part? es "logging" Logging.ofJson? (some d.logging)
  let scan ← Json.part? es "scan" Scan.ofJson? (some d.scan)
  let parser ← Json.part? es "parser" Parser.ofJson? (some d.parser)
  return ⟨logging, scan, parser⟩

end PrototypeScan.Config
