import PrototypeScan.Files.Listing
import PrototypeScan.Provider.Select
import PrototypeScan.Scan.Pool
import PrototypeScan.Scan.Report

/-!
Scanning what is at a path: one file, or all files that a directory lists.
-/
namespace PrototypeScan

/-- What a scan goes by. -/
structure Scanner where
  config : Config
  rules : List Rule
  /-- whether files hold trees rather than sources -/
  preParsed : Bool
  /-- what makes trees of the files, be it one that settings can ask for or not -/
  provider : Provider

namespace Scanner

/-- The scanner for settings, with the rules and the provider that they ask for. -/
def ofConfig (c : Config) (preParsed : Bool) : Scanner where
  config := c
  rules := (Repository.ofProperties c.scan.properties).rules
  preParsed := preParsed
  provider := .ofKind c.parser (.select preParsed c.parser.frontend)

def listing (s : Scanner) : Listing :=
  ⟨s.config.scan.maxDepth, s.config.scan.exclude, s.config.parser.sourceType, s.preParsed⟩

/-- Refuses a file that is larger than it may be. -/
def checkSize (s : Scanner) (w : Workspace) (path : String) : Except Scan.Error Unit :=
  match s.config.scan.maxFileSize with
  | none => .ok ()
  | some limit => match w.size path with
    | .error e => .error (.io path e)
    | .ok size => if limit < size then .error (.fileTooLarge path size limit) else .ok ()

/-- The findings of a source. -/
def source (s : Scanner) (w : Workspace) (f : SourceFile) (text : String) :
    Except Scan.Error (List Finding) :=
  match s.provider.parse w f.path text f.kind with
  | .error e => .error (.parse e)
  | .ok v => match Scan.limited s.config.scan.limits s.rules v with
    | .error e => .error (.tree e)
    | .ok fs => .ok fs

/-- The findings of a file. Its size is looked at before it is read. -/
def file (s : Scanner) (w : Workspace) (f : SourceFile) : Except Scan.Error (List Finding) :=
  match s.checkSize w f.path with
  | .error e => .error e
  | .ok () => match w.read f.path with
    | .error e => .error (.io f.path e)
    | .ok contents => s.source w f contents.decoded

/-- Scans a path as one file. -/
def single (s : Scanner) (w : Workspace) (path : String) : Except Scan.Error FileReport :=
  match s.listing.classify? path with
  | none => .error (.unsupported path)
  | some f => (s.file w f).map fun fs => ⟨f.path, fs⟩

/-- How many files may be under way at a time. -/
def width (s : Scanner) : Nat := max s.config.scan.maxConcurrent 1

/-- Scans the files of a directory in a pool. Whether trees can be made at all is looked at once, before
the first file. -/
def directory (s : Scanner) (pool : Pool FileOutcome) (w : Workspace) (root : String) :
    Except Scan.Error Report :=
  match s.listing.files w root with
  | .error e => .error (.io root e)
  | .ok fs =>
    match if fs.isEmpty then .ok () else s.provider.check w with
    | .error e => .error (.parse e)
    | .ok () => .ok (.ofOutcomes root (pool s.width (fs.map fun f _ => (f.path, s.file w f))))

/-- Scans what is at a path, the files of a directory in a pool. -/
def scanIn (s : Scanner) (pool : Pool FileOutcome) (w : Workspace) (root : String) :
    Except Scan.Error Report :=
  if !w.contains root then .error (.notFound root)
  else if w.isDirectory root then s.directory pool w root
  else (s.single w root).map (.ofFile root)

/-- Scans what is at a path, one file behind the other. -/
def scan (s : Scanner) (w : Workspace) (root : String) : Except Scan.Error Report :=
  s.scanIn .inTurn w root

end Scanner

end PrototypeScan
