import PrototypeScan.CommandLine.Request
import PrototypeScan.Tree.Basic

/-!
Reading a command line. Options for all commands may stand before a command and behind it; each may be
given once in either place, and the later place counts. An option that takes a value has it attached or
as the next argument. A value is looked at when the next option comes or when the arguments end, so an
earlier fault can be hidden by a call for help that is read in between.
-/
namespace PrototypeScan.Arguments

/-- Why a command line is not carried out. -/
inductive Stop where
  | help
  | version
  | usage
  deriving DecidableEq, Repr

/-- A place on the command line: before a command, or behind one. -/
inductive Level where
  | top
  | scan
  | rules
  deriving DecidableEq, Repr

inductive Switch where
  | format
  | verbose
  | quiet
  | config
  | help
  | version
  | frontend
  | preParsed
  | failOnFindings
  deriving DecidableEq, Repr

namespace Switch

def takesValue : Switch → Bool
  | format | config | frontend => true
  | _ => false

/-- The switches that a level knows. -/
def known : Level → List Switch
  | .top => [format, verbose, quiet, config, help, version]
  | .scan => [format, verbose, quiet, config, help, frontend, preParsed, failOnFindings]
  | .rules => [format, verbose, quiet, config, help]

def longName : Switch → String
  | format => "format"
  | verbose => "verbose"
  | quiet => "quiet"
  | config => "config"
  | help => "help"
  | version => "version"
  | frontend => "frontend"
  | preParsed => "ast"
  | failOnFindings => "fail-on-findings"

def letter? : Switch → Option Char
  | format => some 'f'
  | verbose => some 'v'
  | quiet => some 'q'
  | help => some 'h'
  | version => some 'V'
  | _ => none

end Switch

/-- What has been given at a level. -/
structure Given where
  format : Option OutputFormat
  verbose : Bool
  quiet : Bool
  config : Option String
  frontend : Option Frontend
  preParsed : Bool
  failOnFindings : Bool
  paths : List String

namespace Given

def nothing : Given := ⟨none, false, false, none, none, false, false, []⟩

/-- Sets what is not set yet. -/
def once {α : Type} (old new : Option α) : Except Stop (Option α) :=
  match old, new with
  | none, some v => .ok (some v)
  | _, _ => .error .usage

/-- A path must not be empty. -/
def path? (text : String) : Option String := if text = "" then none else some text

/-- Takes the value of a switch. -/
def take (g : Given) (s : Switch) (value : String) : Except Stop Given :=
  match s with
  | .format => (once g.format (OutputFormat.ofName? value)).map ({ g with format := · })
  | .config => (once g.config (path? value)).map ({ g with config := · })
  | .frontend => (once g.frontend (Frontend.ofName? value)).map ({ g with frontend := · })
  | _ => .error .usage

/-- Sets a switch that takes no value. -/
def set (g : Given) (s : Switch) : Except Stop Given :=
  match s with
  | .verbose => if g.verbose then .error .usage else .ok { g with verbose := true }
  | .quiet => if g.quiet then .error .usage else .ok { g with quiet := true }
  | .preParsed => if g.preParsed then .error .usage else .ok { g with preParsed := true }
  | .failOnFindings =>
    if g.failOnFindings then .error .usage else .ok { g with failOnFindings := true }
  | .help => .error .help
  | .version => .error .version
  | .format | .config | .frontend => .error .usage

end Given

/-- What has been read but not looked at yet. -/
inductive Pending where
  | nothing
  | value (s : Switch) (text : Option String)
  | paths (ps : List String)

structure State where
  given : Given
  pending : Pending
  /-- whether everything that follows is a path -/
  pathsOnly : Bool

namespace State

def start : State := ⟨.nothing, .nothing, false⟩

/-- Whether the next argument is the value of a switch. -/
def awaitsValue (st : State) : Bool :=
  match st.pending with
  | .value _ none => true
  | _ => false

/-- Looks at what is pending. -/
def resolve (st : State) : Except Stop State :=
  match st.pending with
  | .nothing => .ok st
  | .value _ none => .error .usage
  | .value s (some v) => (st.given.take s v).map fun g => { st with given := g, pending := .nothing }
  | .paths ps =>
    if ps.contains "" then .error .usage
    else .ok { st with given := { st.given with paths := st.given.paths ++ ps }, pending := .nothing }

def setSwitch (st : State) (s : Switch) : Except Stop State := do
  let st ← st.resolve
  return { st with given := ← st.given.set s }

/-- A switch that takes a value, which may be attached. -/
def beginValue (st : State) (s : Switch) (attached : Option String) : Except Stop State := do
  let st ← st.resolve
  match attached with
  | some v => return { st with given := ← st.given.take s v }
  | none => return { st with pending := .value s none }

/-- An argument that starts with two hyphens. -/
def long (st : State) (l : Level) (text : List Char) : Except Stop State :=
  let name := String.ofList (text.takeWhile (· ≠ '='))
  let attached := match text.dropWhile (· ≠ '=') with
    | _ :: v => some (String.ofList v)
    | [] => none
  match (Switch.known l).find? (·.longName = name) with
  | none => .error .usage
  | some s =>
    if s.takesValue then st.beginValue s attached
    else if attached.isSome then .error .usage
    else st.setSwitch s

/-- The letters behind a single hyphen. What follows the letter of a switch that takes a value is that
value. -/
def short (l : Level) : List Char → State → Except Stop State
  | [], st => .ok st
  | c :: rest, st =>
    match (Switch.known l).find? (·.letter? = some c) with
    | none => .error .usage
    | some s =>
      if s.takesValue then
        st.beginValue s (match rest with
          | [] => none
          | '=' :: v => some (String.ofList v)
          | v => some (String.ofList v))
      else (st.setSwitch s).bind (short l rest)

/-- An argument that is no switch and no value of one: a path, where paths are taken. -/
def path (st : State) (l : Level) (text : String) : Except Stop State :=
  if l = .scan then
    match st.pending with
    | .paths ps => .ok { st with pending := .paths (ps ++ [text]) }
    | _ => st.resolve.map fun st => { st with pending := .paths [text] }
  else .error .usage

/-- Reads one argument. -/
def step (l : Level) (st : State) (argument : String) : Except Stop State :=
  if st.pathsOnly then st.path l argument
  else match argument.toList, st.pending with
    | ['-', '-'], _ => .ok { st with pathsOnly := true }
    | '-' :: '-' :: text, _ => st.long l text
    | '-' :: c :: text, _ => short l (c :: text) st
    | _, .value s none => .ok { st with pending := .value s (some argument) }
    | _, _ => st.path l argument

/-- The end of the arguments of a level. A path for the settings that the environment names must not be
empty where none is given. -/
def finish (st : State) (l : Level) (named : Option String) : Except Stop Given := do
  let st ← st.resolve
  if st.given.config.isNone && named = some "" then throw .usage
  if l = .scan && st.given.paths.isEmpty then throw .usage
  return st.given

end State

/-- Names of commands. -/
def commands : List (String × Level) := [("scan", .scan), ("s", .scan), ("rules", .rules)]

/-- A call for help, which may name a command. -/
def helpFor : List String → Stop
  | [] => .help
  | [name] => if name = "help" || (Fields.get? name commands).isSome then .help else .usage
  | _ => .usage

/-- Reads up to a command, and gives the arguments behind it. -/
def readTop (st : State) : List String → Except Stop (State × Option (Level × List String))
  | [] => .ok (st, none)
  | a :: rest =>
    let mayBeCommand := !st.pathsOnly && !st.awaitsValue
    if mayBeCommand && a = "help" then .error (helpFor rest)
    else match if mayBeCommand then Fields.get? a commands else none with
      | some l => .ok (st, some (l, rest))
      | none => (st.step .top a).bind (readTop · rest)

/-- What a command and the options on both sides of it ask for. -/
def request (top inner : Given) (named : Option String) (l : Level) : Request where
  format := (inner.format.or top.format).getD .text
  verbose := top.verbose || inner.verbose
  quiet := top.quiet || inner.quiet
  config := (inner.config.or top.config).or named
  command :=
    if l = .scan then .scan ⟨inner.paths, inner.frontend, inner.preParsed, inner.failOnFindings⟩
    else .rules

/-- Reads a command line; `named` is the path of the settings that the environment names. -/
def read (arguments : List String) (named : Option String) : Except Stop Request := do
  let (st, command) ← readTop .start arguments
  match command with
  | none =>
    let _ ← st.finish .top named
    throw .usage
  | some (l, rest) =>
    let inner ← (← rest.foldlM (State.step l) .start).finish l named
    let top ← st.finish .top named
    return request top inner named l

end PrototypeScan.Arguments
