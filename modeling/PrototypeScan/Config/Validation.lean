import PrototypeScan.Config.Basic
import PrototypeScan.Text.Split
import PrototypeScan.Text.Escaped

/-!
Which settings make sense. Sections are checked in order, and in each section the first setting that
does not make sense counts.
-/
namespace PrototypeScan.Config

/-- A setting that makes no sense. -/
inductive Problem where
  | unknownFormat (format : String)
  | noScanDepth
  | noConcurrency
  | noFileSize
  | noTreeLimit
  | noProperties
  | blankProperty (property : String)
  | noExecutable
  | noTimeout
  | noEcmaVersion
  deriving DecidableEq, Repr

namespace Problem

/-- The section that a problem is in. -/
def section_ : Problem → String
  | unknownFormat _ => "Logging"
  | noExecutable | noTimeout | noEcmaVersion => "Parser"
  | _ => "Scan"

def reason : Problem → String
  | unknownFormat format => "Log format must be \"json\" or \"pretty\", got: " ++ format
  | noScanDepth => "max_scan_depth must be greater than 0"
  | noConcurrency => "max_concurrent_files must be greater than 0"
  | noFileSize => "max_file_size_bytes must be greater than 0 when set"
  | noTreeLimit => "tree limits must be greater than 0 when set"
  | noProperties => "sensitive_properties cannot be empty"
  | blankProperty property =>
    "sensitive_properties contains a blank entry: " ++ Text.escaped property
  | noExecutable => "node_executable cannot be empty"
  | noTimeout => "Parser timeout must be greater than 0 seconds"
  | noEcmaVersion => "ecma_version cannot be empty"

def message (p : Problem) : String := p.section_ ++ " configuration error: " ++ p.reason

end Problem

def Logging.problem? (l : Logging) : Option Problem :=
  if l.format = "json" || l.format = "pretty" then none else some (.unknownFormat l.format)

def Scan.problem? (s : Scan) : Option Problem :=
  if s.maxDepth = 0 then some .noScanDepth
  else if s.maxConcurrent = 0 then some .noConcurrency
  else if s.maxFileSize = some 0 then some .noFileSize
  else if s.limits.nodes = some 0 || s.limits.depth = some 0 then some .noTreeLimit
  else if s.properties.isEmpty then some .noProperties
  else (s.properties.find? Text.isBlank).map .blankProperty

def Parser.problem? (p : Parser) : Option Problem :=
  if Text.isBlank p.executable then some .noExecutable
  else if p.timeout = 0 then some .noTimeout
  else if Text.isBlank p.ecmaVersion then some .noEcmaVersion
  else none

/-- The first problem of all sections. -/
def problem? (c : Config) : Option Problem :=
  c.logging.problem?.or (c.scan.problem?.or c.parser.problem?)

end PrototypeScan.Config
