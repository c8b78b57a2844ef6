import PrototypeScan.Scan.Report

/-!
What scanning the paths of a command line comes to: an exit code, and the same facts as lines of text or
as JSON.
-/
namespace PrototypeScan

/-- A path of the command line, and what became of it. -/
structure PathOutcome where
  path : String
  result : Except Scan.Error Report

abbrev Session := List PathOutcome

namespace Session

/-- The reports on the paths that could be scanned. -/
def reports (s : Session) : List Report := s.filterMap (·.result.toOption)

/-- The paths that could not be scanned at all, with the reasons. -/
def errors (s : Session) : List FileFailure :=
  s.filterMap fun o => match o.result with
    | .error e => some ⟨o.path, e⟩
    | .ok _ => none

/-- All reasons why something was not scanned. -/
def failures (s : Session) : List FileFailure := s.errors ++ s.reports.flatMap (·.failures)

def filesScanned (s : Session) : Nat := total (s.reports.map (·.filesScanned))

def findingCount (s : Session) : Nat := total (s.reports.map (·.findingCount))

/-- The exit code: 3 if a source or a tree was refused, 2 if something else failed, and 1 for findings
where those count as a failure. -/
def exitCode (s : Session) (failOnFindings : Bool) : Nat :=
  match ((s.failures.map fun f => if f.error.isInput then 2 else 3).max?) with
  | some code => code
  | none => if failOnFindings && 0 < s.findingCount then 1 else 0

def toJson (s : Session) : Json :=
  .object [
    ("reports", .array (s.reports.map Report.toJson)),
    ("errors", .array (s.errors.map fun f =>
      .object [("path", .string f.path), ("error", .string f.error.message)])),
    ("finding_count", .ofNat s.findingCount)]

end Session

/-- Something to tell the user. -/
inductive Notice where
  | nothingFound (root : String)
  | clean (path : String)
  | risks (path : String)
  | finding (f : Finding)
  | failure (path : String) (e : Scan.Error)
  | total (files findings : Nat)

namespace Notice

/-- The lines of a notice. -/
def text : Notice → String
  | nothingFound root => "[WARN] No supported files found in '" ++ root ++ "'\n"
  | clean path => "[✓] No prototype pollution detected in '" ++ path ++ "'.\n"
  | risks path => "[!] Prototype pollution risks detected in '" ++ path ++ "':\n\n"
  | finding f => f.text ++ "\n"
  | failure path e => "[ERROR] " ++ e.describe path ++ "\n"
  | total files findings =>
    "Scanned " ++ toString files ++ " file(s), " ++ toString findings ++ " finding(s)\n"

/-- Whether a notice is part of the report rather than a diagnostic. -/
def isReport : Notice → Bool
  | clean _ | risks _ | finding _ => true
  | nothingFound _ | failure _ _ | total _ _ => false

/-- Whether a notice is left out of a quiet run. -/
def isChatter : Notice → Bool
  | nothingFound _ | clean _ | total _ _ => true
  | risks _ | finding _ | failure _ _ => false

/-- The notices on a file. -/
def ofFile (f : FileReport) : List Notice :=
  if f.findings.isEmpty then [clean f.path] else risks f.path :: f.findings.map finding

/-- The notices on a report: the scanned files first, then the failures. -/
def ofReport (r : Report) : List Notice :=
  (if r.isEmpty then [nothingFound r.root] else []) ++ r.files.flatMap ofFile ++
    r.failures.map fun f => failure f.path f.error

def ofOutcome (o : PathOutcome) : List Notice :=
  match o.result with
  | .ok r => ofReport r
  | .error e => [failure o.path e]

/-- All notices of a session, with the total at the end if it is asked for. -/
def ofSession (s : Session) (verbose : Bool) : List Notice :=
  s.flatMap ofOutcome ++ if verbose then [total s.filesScanned s.findingCount] else []

/-- The notices of one kind as text. -/
def print (quiet report : Bool) (ns : List Notice) : String :=
  String.join ((ns.filter fun n => n.isReport = report && !(quiet && n.isChatter)).map text)

end Notice

end PrototypeScan
