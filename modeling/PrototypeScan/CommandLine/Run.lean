import PrototypeScan.CommandLine.Arguments
import PrototypeScan.CommandLine.LogFilter
import PrototypeScan.CommandLine.Session
import PrototypeScan.Config.Load
import PrototypeScan.Json.Writer
import PrototypeScan.Scan.Scanner

/-!
Carrying out a command line.
-/
namespace PrototypeScan

/-- How a run ends, and what it prints on both streams. Log lines are left out: they go to standard error too, in front
of what stands here and between it. -/
structure RunResult where
  code : Nat
  output : String
  errors : String
  deriving DecidableEq, Repr

namespace CommandLine

def versionLine : String := "protoguard 0.1.0\n"

/-- The variable that names a file with settings. -/
def configVariable : String := "PROTOGUARD_CONFIG"

/-- The variable with a filter for log lines. -/
def logVariable : String := "RUST_LOG"

/-- A run that ends because its settings cannot be used. -/
def refused (reason : String) : RunResult := ⟨2, "", "Error: " ++ reason ++ "\n"⟩

/-- A run that does not come to a command. The texts of help and of usage errors are not part of it. -/
def stopped : Arguments.Stop → RunResult
  | .help => ⟨0, "", ""⟩
  | .version => ⟨0, versionLine, ""⟩
  | .usage => ⟨2, "", ""⟩

/-- The message for settings that could not be loaded, with its cause behind it. -/
def loadMessage (e : Config.LoadError) : String :=
  "Failed to load configuration: " ++ e.message ++
    match e with
    | .problem p => ": " ++ p.message
    | _ => ""

/-- The level of log lines that a request asks for. -/
def logLevel (r : Request) (c : Config) : String :=
  if r.quiet then "error" else if r.verbose then "debug" else c.logging.level

/-- What is wrong with the filter for log lines. The environment's filter counts if it is well formed. -/
def logFault? (environment : List (String × String)) (level : String) : Option LogFilter.Fault :=
  match Fields.get? logVariable environment with
  | some filter => if (LogFilter.fault? filter).isNone then none else LogFilter.fault? level
  | none => LogFilter.fault? level

def logMessage (level : String) (fault : LogFilter.Fault) : String :=
  "Failed to initialize logging: Invalid log filter '" ++ level ++ "': " ++ fault.message

/-- Scans the paths of a request. -/
def session (w : Workspace) (c : Config) (r : ScanRequest) : Session :=
  let parser := { c.parser with frontend := r.frontend.getD c.parser.frontend }
  let scanner := Scanner.ofConfig { c with parser } r.preParsed
  r.paths.map fun path => ⟨path, scanner.scan w path⟩

/-- The result of a scan in the format of a request. -/
def scanResult (r : Request) (s : Session) (failOnFindings : Bool) : RunResult :=
  let code := s.exitCode failOnFindings
  match r.format with
  | .json => ⟨code, s.toJson.pretty ++ "\n", ""⟩
  | .text =>
    let notices := Notice.ofSession s r.verbose
    ⟨code, Notice.print r.quiet true notices, Notice.print r.quiet false notices⟩

def rulesJson (rules : List Rule) (properties : List String) : Json :=
  .object [
    ("rules", .array (rules.map fun rule =>
      .object [("name", .string rule.name), ("severity", .string rule.severity.text),
        ("description", .string rule.description)])),
    ("sensitive_properties", .array (properties.map .string))]

def rulesText (rules : List Rule) (properties : List String) : String :=
  String.join (rules.map fun rule =>
    rule.name ++ " [" ++ rule.severity.text ++ "] " ++ rule.description ++ "\n") ++
    "Sensitive properties: " ++ ", ".intercalate properties ++ "\n"

/-- The list of rules in the format of a request. -/
def rulesResult (r : Request) (c : Config) : RunResult :=
  let rules := (Repository.ofProperties c.scan.properties).rules
  match r.format with
  | .json => ⟨0, (rulesJson rules c.scan.properties).pretty ++ "\n", ""⟩
  | .text => ⟨0, rulesText rules c.scan.properties, ""⟩

/-- Carries out a request with its settings. -/
def perform (w : Workspace) (c : Config) (r : Request) : RunResult :=
  match r.command with
  | .scan s => scanResult r (session w c s) s.failOnFindings
  | .rules => rulesResult r c

/-- Runs a command line in a directory with an environment. -/
def run (w : Workspace) (environment : List (String × String)) (arguments : List String) :
    RunResult :=
  match Arguments.read arguments (Fields.get? configVariable environment) with
  | .error stop => stopped stop
  | .ok r => match Config.load w environment r.config with
    | .error e => refused (loadMessage e)
    | .ok c =>
      let level := logLevel r c
      match logFault? environment level with
      | some fault => refused (logMessage level fault)
      | none => perform w c r

end CommandLine

end PrototypeScan
