import PrototypeScan.Config.Conversion
import PrototypeScan.Config.Environment
import PrototypeScan.Config.Validation
import PrototypeScan.Files.Basic
import PrototypeScan.Toml.Document

/-!
Settings from all their sources: the file of the working directory, a file that is asked for, and the
environment, each laid over the ones before it. Only the result is converted and checked.
-/
namespace PrototypeScan.Config

/-- Why there are no settings. -/
inductive LoadError where
  | notFound (path : String)
  /-- a source that cannot be read, or a value of a wrong type -/
  | invalid
  | problem (p : Problem)
  deriving DecidableEq, Repr

/-- The message of an error; what is wrong with a source is not part of it. -/
def LoadError.message : LoadError → String
  | notFound path => "Configuration file not found: " ++ path
  | invalid => "Configuration file error"
  | problem p => "Configuration validation error: " ++ p.message

/-- The path of the file in the working directory, without its extension. -/
def projectPath : String := "protoguard"

/-- The file that holds settings for a path: the one at the path itself if it has the right extension, or
the one at the path with that extension added if there is none at the path itself. -/
def settingsFile? (w : Workspace) (path : String) : Option File :=
  match w.file? path with
  | some f => if Path.extension? path = some "toml" then some f else none
  | none => (Path.extended? path ".toml").bind w.file?

/-- The settings that a file holds. -/
def settingsOf? (f : File) : Option (List (String × Setting)) :=
  let text := f.contents.decoded
  Toml.read? (match text.toList with
    | '\uFEFF' :: cs => String.ofList cs
    | _ => text)

/-- The settings of the file in the working directory, which may be missing. -/
def projectSettings? (w : Workspace) : Option (List (String × Setting)) :=
  match settingsFile? w projectPath with
  | some f => settingsOf? f
  | none => some []

/-- The settings of a file that is asked for. -/
def givenSettings? (w : Workspace) : Option String → Option (List (String × Setting))
  | some path => (settingsFile? w path).bind settingsOf?
  | none => some []

/-- All sources, the later ones laid over the earlier ones. -/
def merged (sources : List (List (String × Setting))) : Setting :=
  sources.foldl Setting.layer (.table [])

/-- Checked settings from a value. -/
def checked (v : Setting) : Except LoadError Config :=
  match ofSetting? v with
  | none => .error .invalid
  | some c => match c.problem? with
    | some p => .error (.problem p)
    | none => .ok c

/-- The settings of a run. -/
def load (w : Workspace) (environment : List (String × String)) (path : Option String) :
    Except LoadError Config :=
  match path.filter fun p => !w.contains p with
  | some p => .error (.notFound p)
  | none => match projectSettings? w, givenSettings? w path with
    | some project, some given => checked (merged [project, given, Environment.settings environment])
    | _, _ => .error .invalid

end PrototypeScan.Config
