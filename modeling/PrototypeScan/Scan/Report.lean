import PrototypeScan.Finding.Json
import PrototypeScan.Scan.Error

/-!
What a scan of a path gives: the findings of each file, and the files that could not be scanned.
-/
namespace PrototypeScan

def total : List Nat → Nat
  | [] => 0
  | n :: ns => n + total ns

@[simp] theorem total_cons (n : Nat) (ns : List Nat) : total (n :: ns) = n + total ns := rfl

structure FileReport where
  path : String
  findings : List Finding

structure FileFailure where
  path : String
  error : Scan.Error

structure Report where
  root : String
  /-- how many files were scanned to their end -/
  filesScanned : Nat
  files : List FileReport
  failures : List FileFailure

/-- What became of a file. -/
abbrev FileOutcome := String × Except Scan.Error (List Finding)

namespace FileOutcome

def report? : FileOutcome → Option FileReport
  | (path, .ok fs) => some ⟨path, fs⟩
  | (_, .error _) => none

def failure? : FileOutcome → Option FileFailure
  | (path, .error e) => some ⟨path, e⟩
  | (_, .ok _) => none

end FileOutcome

namespace Report

/-- The report on files, each of which is among the scanned ones or among the failures. -/
def ofOutcomes (root : String) (outcomes : List FileOutcome) : Report :=
  let files := outcomes.filterMap FileOutcome.report?
  ⟨root, files.length, files, outcomes.filterMap FileOutcome.failure?⟩

/-- The report on a path that is one file. -/
def ofFile (root : String) (f : FileReport) : Report := ⟨root, 1, [f], []⟩

def findingCount (r : Report) : Nat := total (r.files.map (·.findings.length))

def hasFindings (r : Report) : Bool := r.files.any fun f => !f.findings.isEmpty

def isEmpty (r : Report) : Bool := r.filesScanned = 0 && r.failures.isEmpty

def toJson (r : Report) : Json :=
  .object [
    ("root", .string r.root),
    ("files_scanned", .ofNat r.filesScanned),
    ("files", .array (r.files.map fun f =>
      .object [("path", .string f.path), ("findings", Finding.listToJson f.findings)])),
    ("failures", .array (r.failures.map fun f =>
      .object [("path", .string f.path), ("error", .string f.error.message)]))]

end Report

end PrototypeScan
