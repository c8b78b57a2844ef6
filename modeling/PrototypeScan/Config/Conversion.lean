import PrototypeScan.Config.Basic
import PrototypeScan.Config.Setting

/-!
Settings from the values that sources give. A scalar is taken for one of another type where it can be
read as one.
-/
namespace PrototypeScan.Setting

def bound64 : Nat := twoTo 64

/-- A text in lower case. -/
def lower (s : String) : String := String.ofList (s.toList.map Char.toLower)

/-- The number that digits denote, with a plus sign or without. -/
def natOfText? (s : String) : Option Nat :=
  let digits := match s.toList with
    | '+' :: ds => ds
    | ds => ds
  if digits.all Char.isDigit then (Decimal.ofDigits 10 digits).filter (· < bound64) else none

/-- A number of 64 bits: reals are rounded and cut off at both ends of the range. -/
def toNat? : Setting → Option Nat
  | integer i => if 0 ≤ i then some i.toNat else none
  | bool b => some b.toNat
  | real x =>
    if x.isNaN || x.isNegative then some 0
    else match x.toInt? with
      | some i => some (min i.toNat (bound64 - 1))
      | none => some (bound64 - 1)
  | text s =>
    if ["true", "on", "yes"].contains (lower s) then some 1
    else if ["false", "off", "no"].contains (lower s) then some 0
    else natOfText? s
  | missing | list _ | table _ => none

def toText? : Setting → Option String
  | text s => some s
  | bool b => some (if b then "true" else "false")
  | integer i => some (toString i)
  | real x => some (Decimal.plainText x)
  | missing | list _ | table _ => none

def toTexts? : Setting → Option (List String)
  | list vs => vs.mapM toText?
  | _ => none

/-- A value that need not be there. -/
def optional? {α : Type} (read? : Setting → Option α) : Setting → Option (Option α)
  | missing => some none
  | v => (read? v).map some

/-- One of a few names: a text, or a table whose only key is the name. -/
def choice? {α : Type} (ofText? : String → Option α) : Setting → Option α
  | text s => ofText? s
  | table [(s, _)] => ofText? s
  | _ => none

/-- The parts of a section with the given keys: a table, or a list of the parts in order. -/
def parts? (keys : List String) : Setting → Option (List (String × Setting))
  | table es => some es
  | list vs => some (keys.zip vs)
  | _ => none

/-- A part: `standard` where it is missing, and what `read?` makes of it otherwise. -/
def part? {α : Type} (parts : List (String × Setting)) (key : String)
    (read? : Setting → Option α) (standard : α) : Option α :=
  match Fields.get? key parts with
  | some v => read? v
  | none => some standard

end PrototypeScan.Setting

namespace PrototypeScan.Config
open Setting

def Logging.ofSetting? (v : Setting) : Option Logging := do
  let es ← parts? Logging.keys v
  let d := Logging.default
  let level ← part? es "level" toText? d.level
  let format ← part? es "format" toText? d.format
  return ⟨level, format⟩

def Scan.ofSetting? (v : Setting) : Option Scan := do
  let es ← parts? Scan.keys v
  let d := Scan.default
  let maxDepth ← part? es "max_scan_depth" toNat? d.maxDepth
  let exclude ← part? es "exclude_patterns" toTexts? d.exclude
  let maxFileSize ← part? es "max_file_size_bytes" (optional? toNat?) d.maxFileSize
  let maxConcurrent ← part? es "max_concurrent_files" toNat? d.maxConcurrent
  let nodes ← part? es "max_tree_nodes" (optional? toNat?) d.limits.nodes
  let depth ← part? es "max_tree_depth" (optional? toNat?) d.limits.depth
  let properties ← part? es "sensitive_properties" toTexts? d.properties
  return ⟨maxDepth, exclude, maxFileSize, maxConcurrent, ⟨nodes, depth⟩, properties⟩

def Parser.ofSetting? (v : Setting) : Option Parser := do
  let es ← parts? Parser.keys v
  let d := Parser.default
  let frontend ← part? es "frontend" (choice? Frontend.ofText?) d.frontend
  let executable ← part? es "node_executable" toText? d.executable
  let directory ← part? es "node_modules_dir" (optional? toText?) d.modulesDirectory
  let timeout ← part? es "timeout_seconds" toNat? d.timeout
  let ecmaVersion ← part? es "ecma_version" toText? d.ecmaVersion
  let sourceType ← part? es "default_source_type" (choice? SourceType.ofText?) d.sourceType
  return ⟨frontend, executable, directory, timeout, ecmaVersion, sourceType⟩

/-- The settings that a value describes. -/
def ofSetting? (v : Setting) : Option Config := do
  let es ← parts? keys v
  let d := Config.default
  let logging ← part? es "logging" Logging.ofSetting? d.logging
  let scan ← part? es "scan" Scan.ofSetting? d.scan
  let parser ← part? es "parser" Parser.ofSetting? d.parser
  return ⟨logging, scan, parser⟩

end PrototypeScan.Config
