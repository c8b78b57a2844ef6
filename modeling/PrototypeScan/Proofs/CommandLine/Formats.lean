import Mathlib.Data.List.Perm.Basic
import PrototypeScan.Proofs.CommandLine.ExitCode
import PrototypeScan.Proofs.Finding.Json

/-!
A session says the same as text and as JSON. The text on standard output is made of the files that the JSON
lists, in the same order, each one with a line that names it and one for each of its findings; on standard
error there is one line for each failure. What a quiet run leaves out are remarks: that a file is clean, that
nothing was found to scan, and the total.
-/
namespace PrototypeScan

namespace Json

/-- What an array under a key of an object holds. -/
def each? {α : Type} (key : String) (read? : Json → Option α) (v : Json) : Option (List α) :=
  (v.get? key).bind fun items => items.asArray?.bind (·.mapM read?)

theorem each?_of_get? {α β : Type} {key : String} {read? : Json → Option α} {v : Json}
    {write : β → Json} {f : β → α} {bs : List β} (hget : v.get? key = some (.array (bs.map write)))
    (h : ∀ b ∈ bs, read? (write b) = some (f b)) : v.each? key read? = some (bs.map f) := by
  rw [each?, hget]
  exact mapM_map_eq_some h

end Json

namespace FileReport

/-- A file and its findings, from their JSON. -/
def ofJson? (v : Json) : Option FileReport := do
  let path ← (v.get? "path").bind Json.asString?
  let findings ← (v.get? "findings").bind Finding.listOfJson?
  return ⟨path, findings⟩

/-- The lines on what was found in a file. -/
def lines (f : FileReport) : List String :=
  if f.findings.isEmpty then []
  else ("[!] Prototype pollution risks detected in '" ++ f.path ++ "':\n\n") ::
    f.findings.map fun finding => finding.text ++ "\n"

/-- The line on a file in which nothing was found. -/
def remarks (f : FileReport) : List String :=
  if f.findings.isEmpty then ["[✓] No prototype pollution detected in '" ++ f.path ++ "'.\n"] else []

end FileReport

namespace FileFailure

/-- What JSON says of a failure: the path, and the message. -/
def entry (f : FileFailure) : String × String := (f.path, f.error.message)

def entryOfJson? (v : Json) : Option (String × String) := do
  let path ← (v.get? "path").bind Json.asString?
  let message ← (v.get? "error").bind Json.asString?
  return (path, message)

/-- The line on a failure: the message, behind the path if the message does not name it. -/
def line (f : FileFailure) : String :=
  "[ERROR] " ++ (if f.error.namesPath then f.entry.2 else f.entry.1 ++ ": " ++ f.entry.2) ++ "\n"

end FileFailure

namespace PathOutcome

/-- What failed at a path: the path itself, or files in the report on it. -/
def failures (o : PathOutcome) : List FileFailure :=
  match o.result with
  | .ok r => r.failures
  | .error e => [⟨o.path, e⟩]

/-- The line on a path with nothing to scan. -/
def remarks (o : PathOutcome) : List String :=
  match o.result with
  | .ok r => if r.isEmpty then ["[WARN] No supported files found in '" ++ r.root ++ "'\n"] else []
  | .error _ => []

end PathOutcome

namespace Session

/-- The files in all reports, from the JSON of a session. -/
def filesOfJson? (v : Json) : Option (List FileReport) :=
  (v.each? "reports" (Json.each? "files" FileReport.ofJson?)).map List.flatten

/-- The failures in all reports, from the JSON of a session. -/
def failuresOfJson? (v : Json) : Option (List (String × String)) :=
  (v.each? "reports" (Json.each? "failures" FileFailure.entryOfJson?)).map List.flatten

/-- The paths that could not be scanned at all, from the JSON of a session. -/
def errorsOfJson? (v : Json) : Option (List (String × String)) :=
  v.each? "errors" FileFailure.entryOfJson?

variable (s : Session)

/-- The total. -/
def remarks : List String :=
  ["Scanned " ++ toString s.filesScanned ++ " file(s), " ++ toString s.findingCount ++ " finding(s)\n"]

theorem filesOfJson?_toJson : filesOfJson? s.toJson = some (s.reports.flatMap (·.files)) := by
  have hreports : s.toJson.get? "reports" = some (.array (s.reports.map Report.toJson)) := rfl
  have hfiles (r : Report) : r.toJson.each? "files" FileReport.ofJson? = some r.files := by
    rw [Json.each?_of_get? (f := id) rfl, List.map_id]
    intro f _
    change (Finding.listOfJson? (Finding.listToJson f.findings)).bind _ = _
    rw [Finding.listOfJson?_listToJson]
    rfl
  rw [filesOfJson?, Json.each?_of_get? hreports fun r _ => hfiles r]
  rfl

theorem failuresOfJson?_toJson :
    failuresOfJson? s.toJson = some ((s.reports.flatMap (·.failures)).map FileFailure.entry) := by
  have hreports : s.toJson.get? "reports" = some (.array (s.reports.map Report.toJson)) := rfl
  have hfailures (r : Report) : r.toJson.each? "failures" FileFailure.entryOfJson? =
      some (r.failures.map FileFailure.entry) :=
    Json.each?_of_get? rfl fun _ _ => rfl
  rw [failuresOfJson?, Json.each?_of_get? hreports fun r _ => hfailures r, List.map_flatMap]
  rfl

theorem errorsOfJson?_toJson : errorsOfJson? s.toJson = some (s.errors.map FileFailure.entry) :=
  Json.each?_of_get? rfl fun _ _ => rfl

theorem findingCount_eq :
    s.findingCount = ((s.reports.flatMap (·.files)).flatMap (·.findings)).length := by
  rw [findingCount, List.flatMap_assoc, ← total_map_length]
  exact congrArg total (List.map_congr_left fun r _ => r.findingCount_eq)

/-- The failures path by path are those of the paths that could not be scanned and those in the reports, both
in their order. -/
theorem errors_sublist : s.errors.Sublist (s.flatMap PathOutcome.failures) := by
  induction s with
  | nil => exact .slnil
  | cons o s ih =>
    obtain ⟨path, result⟩ := o
    cases result with
    | ok r => exact ih.trans (List.sublist_append_right _ _)
    | error e => exact ih.cons_cons _

theorem failures_sublist :
    (s.reports.flatMap (·.failures)).Sublist (s.flatMap PathOutcome.failures) := by
  induction s with
  | nil => exact .slnil
  | cons o s ih =>
    obtain ⟨path, result⟩ := o
    cases result with
    | ok r => exact (List.Sublist.refl r.failures).append ih
    | error e => exact ih.cons _

theorem perm_failures :
    (s.flatMap PathOutcome.failures).Perm (s.errors ++ s.reports.flatMap (·.failures)) := by
  induction s with
  | nil => exact .refl _
  | cons o s ih =>
    obtain ⟨path, result⟩ := o
    cases result with
    | ok r =>
      refine (ih.append_left r.failures).trans ?_
      rw [← List.append_assoc]
      exact (List.perm_append_comm.append_right _).trans (.of_eq (List.append_assoc _ _ _))
    | error e => exact ih.cons _

end Session

namespace Notice

/-- The notices that a run prints on one of its streams. -/
def isPrinted (quiet report : Bool) (n : Notice) : Bool :=
  n.isReport = report && !(quiet && n.isChatter)

@[simp] theorem isPrinted_clean (quiet report : Bool) (path : String) :
    isPrinted quiet report (clean path) = (report && !quiet) := by
  cases quiet <;> cases report <;> rfl

@[simp] theorem isPrinted_risks (quiet report : Bool) (path : String) :
    isPrinted quiet report (risks path) = report := by
  cases quiet <;> cases report <;> rfl

@[simp] theorem isPrinted_finding (quiet report : Bool) (f : Finding) :
    isPrinted quiet report (finding f) = report := by
  cases quiet <;> cases report <;> rfl

@[simp] theorem isPrinted_failure (quiet report : Bool) (path : String) (e : Scan.Error) :
    isPrinted quiet report (failure path e) = !report := by
  cases quiet <;> cases report <;> rfl

@[simp] theorem isPrinted_nothingFound (quiet report : Bool) (root : String) :
    isPrinted quiet report (nothingFound root) = (!report && !quiet) := by
  cases quiet <;> cases report <;> rfl

@[simp] theorem isPrinted_total (quiet report : Bool) (files findings : Nat) :
    isPrinted quiet report (total files findings) = (!report && !quiet) := by
  cases quiet <;> cases report <;> rfl

theorem text_failure (f : FileFailure) : (failure f.path f.error).text = f.line := rfl

theorem text_clean (path : String) :
    (clean path).text = "[✓] No prototype pollution detected in '" ++ path ++ "'.\n" := rfl

theorem text_nothingFound (root : String) :
    (nothingFound root).text = "[WARN] No supported files found in '" ++ root ++ "'\n" := rfl

theorem map_text_report_ofFile (quiet : Bool) (f : FileReport) :
    ((ofFile f).filter (isPrinted quiet true)).map text =
      (if quiet then [] else f.remarks) ++ f.lines := by
  rw [ofFile, FileReport.remarks, FileReport.lines]
  split
  · cases quiet <;> simp [text_clean]
  · have hfindings : (f.findings.map finding).filter (isPrinted quiet true) = f.findings.map finding := by
      apply List.filter_eq_self.2
      intro n hn
      obtain ⟨g, -, rfl⟩ := List.mem_map.1 hn
      exact isPrinted_finding quiet true g
    rw [List.filter_cons_of_pos (isPrinted_risks quiet true f.path), hfindings, List.map_cons,
      List.map_map, ite_self]
    rfl

theorem filter_diagnostic_ofFile (quiet : Bool) (f : FileReport) :
    (ofFile f).filter (isPrinted quiet false) = [] := by
  rw [ofFile]
  split
  · exact List.filter_cons_of_neg (by simp)
  · apply List.filter_eq_nil_iff.2
    intro n hn
    rcases List.mem_cons.1 hn with rfl | hn
    · simp
    · obtain ⟨g, -, rfl⟩ := List.mem_map.1 hn
      simp

theorem map_text_report_ofOutcome (quiet : Bool) (o : PathOutcome) :
    ((ofOutcome o).filter (isPrinted quiet true)).map text =
      (o.result.toOption.toList.flatMap (·.files)).flatMap fun f =>
        (if quiet then [] else f.remarks) ++ f.lines := by
  obtain ⟨path, result⟩ := o
  cases result with
  | error e => simp [ofOutcome, Except.toOption]
  | ok r =>
    have hfailures : (r.failures.map fun f => failure f.path f.error).filter (isPrinted quiet true) = [] := by
      simp [List.filter_map, Function.comp_def]
    have hroot : (if r.isEmpty then [nothingFound r.root] else []).filter (isPrinted quiet true) = [] := by
      split <;> simp
    have hfiles : (r.files.flatMap ofFile).filter (isPrinted quiet true) =
        r.files.flatMap fun f => (ofFile f).filter (isPrinted quiet true) :=
      List.filter_flatMap ..
    simp only [ofOutcome, ofReport, Except.toOption, Option.toList_some, List.flatMap_singleton,
      List.filter_append, hroot, hfailures, hfiles, List.nil_append, List.append_nil, List.map_flatMap,
      map_text_report_ofFile]

theorem map_text_diagnostic_ofOutcome (quiet : Bool) (o : PathOutcome) :
    ((ofOutcome o).filter (isPrinted quiet false)).map text =
      (if quiet then [] else o.remarks) ++ o.failures.map FileFailure.line := by
  obtain ⟨path, result⟩ := o
  cases result with
  | error e =>
    have hline := text_failure ⟨path, e⟩
    simp [ofOutcome, PathOutcome.remarks, PathOutcome.failures, hline]
  | ok r =>
    have hfailures : (r.failures.map fun f => failure f.path f.error).filter (isPrinted quiet false) =
        r.failures.map fun f => failure f.path f.error := by
      simp [List.filter_map, Function.comp_def]
    have hfiles : (r.files.flatMap ofFile).filter (isPrinted quiet false) = [] := by
      rw [List.filter_flatMap, List.flatMap_eq_nil_iff]
      exact fun f _ => filter_diagnostic_ofFile quiet f
    have hroot : ((if r.isEmpty then [nothingFound r.root] else []).filter (isPrinted quiet false)).map text =
        if quiet then [] else PathOutcome.remarks ⟨path, .ok r⟩ := by
      cases hempty : r.isEmpty <;> cases quiet <;> simp [PathOutcome.remarks, text_nothingFound, hempty]
    have hlines : (r.failures.map fun f => failure f.path f.error).map text =
        r.failures.map FileFailure.line := by
      rw [List.map_map]
      exact List.map_congr_left fun f _ => text_failure f
    simp only [ofOutcome, ofReport, PathOutcome.failures, List.filter_append, List.map_append, hfiles,
      hfailures, hroot, hlines, List.append_nil]

/-- What a session prints on standard output. -/
theorem print_report (quiet verbose : Bool) (s : Session) :
    print quiet true (ofSession s verbose) =
      String.join ((s.reports.flatMap (·.files)).flatMap fun f =>
        (if quiet then [] else f.remarks) ++ f.lines) := by
  have htotal : (if verbose then [total s.filesScanned s.findingCount] else []).filter
      (isPrinted quiet true) = [] := by
    cases verbose <;> simp
  have hreports : s.reports = s.flatMap fun o => o.result.toOption.toList := by
    rw [Session.reports, List.filterMap_eq_flatMap_toList]
  change String.join (((ofSession s verbose).filter (isPrinted quiet true)).map text) = _
  rw [ofSession, List.filter_append, htotal, List.append_nil, List.filter_flatMap, List.map_flatMap,
    hreports, List.flatMap_assoc, List.flatMap_assoc]
  simp only [map_text_report_ofOutcome, List.flatMap_assoc]

/-- What a session prints on standard error. -/
theorem print_diagnostics (quiet verbose : Bool) (s : Session) :
    print quiet false (ofSession s verbose) =
      String.join ((s.flatMap fun o => (if quiet then [] else o.remarks) ++ o.failures.map FileFailure.line) ++
        if verbose && !quiet then s.remarks else []) := by
  have htotal : ((if verbose then [total s.filesScanned s.findingCount] else []).filter
      (isPrinted quiet false)).map text = if verbose && !quiet then s.remarks else [] := by
    cases verbose <;> cases quiet <;> simp
    rfl
  change String.join (((ofSession s verbose).filter (isPrinted quiet false)).map text) = _
  rw [ofSession, List.filter_append, List.map_append, htotal, List.filter_flatMap, List.map_flatMap]
  simp only [map_text_diagnostic_ofOutcome]

end Notice

namespace CommandLine

/-- What the formats of one session have in common: `text` and `json` are what it prints in each of them, log lines left
out, and `files`, `errors` and `failures` are read from the JSON. -/
structure Agree (r : Request) (s : Session) (text json : RunResult) (files : List FileReport)
    (errors failures : List (String × String)) : Prop where
  jsonOutput : json.output = s.toJson.pretty ++ "\n"
  jsonErrors : json.errors = ""
  readFiles : Session.filesOfJson? s.toJson = some files
  readErrors : Session.errorsOfJson? s.toJson = some errors
  readFailures : Session.failuresOfJson? s.toJson = some failures
  findingCount : s.toJson.get? "finding_count" = some (.ofNat (files.flatMap (·.findings)).length)
  textOutput : text.output = String.join (files.flatMap fun f =>
    (if r.quiet then [] else f.remarks) ++ f.lines)
  textErrors : text.errors = String.join ((s.flatMap fun o =>
    (if r.quiet then [] else o.remarks) ++ o.failures.map FileFailure.line) ++
      if r.verbose && !r.quiet then s.remarks else [])
  errorsInOrder : errors.Sublist (s.flatMap fun o => o.failures.map FileFailure.entry)
  failuresInOrder : failures.Sublist (s.flatMap fun o => o.failures.map FileFailure.entry)
  once : (s.flatMap fun o => o.failures.map FileFailure.entry).Perm (errors ++ failures)

theorem agree_scanResult (r : Request) (s : Session) (failOnFindings : Bool) :
    Agree r s (scanResult { r with format := .text } s failOnFindings)
      (scanResult { r with format := .json } s failOnFindings) (s.reports.flatMap (·.files))
      (s.errors.map FileFailure.entry) ((s.reports.flatMap (·.failures)).map FileFailure.entry) := by
  have hentries : (s.flatMap fun o => o.failures.map FileFailure.entry) =
      (s.flatMap PathOutcome.failures).map FileFailure.entry := by
    rw [List.map_flatMap]
  constructor
  · rfl
  · rfl
  · exact s.filesOfJson?_toJson
  · exact s.errorsOfJson?_toJson
  · exact s.failuresOfJson?_toJson
  · rw [← s.findingCount_eq]
    rfl
  · exact Notice.print_report r.quiet r.verbose s
  · exact Notice.print_diagnostics r.quiet r.verbose s
  · rw [hentries]
    exact s.errors_sublist.map _
  · rw [hentries]
    exact s.failures_sublist.map _
  · rw [hentries, ← List.map_append]
    exact s.perm_failures.map _

/-- The formats of a session agree, whether the run is quiet, verbose or neither, and all of these runs end
with the same code. -/
theorem scanResult_formats (s : Session) (failOnFindings : Bool) :
    ∃ (files : List FileReport) (errors failures : List (String × String)),
      (∀ r : Request, Agree r s (scanResult { r with format := .text } s failOnFindings)
        (scanResult { r with format := .json } s failOnFindings) files errors failures) ∧
      ∀ r r' : Request, (scanResult r' s failOnFindings).code = (scanResult r s failOnFindings).code :=
  ⟨_, _, _, fun r => agree_scanResult r s failOnFindings,
    fun r r' => (code_scanResult r' s _).trans (code_scanResult r s _).symm⟩

/-- Quiet and verbose runs of a scan print the same session as others, and so all formats of all these runs agree. -/
theorem perform_formats (w : Workspace) (c : Config) (request : ScanRequest) :
    let s := session w c request
    ∃ (files : List FileReport) (errors failures : List (String × String)),
      (∀ r : Request, r.command = .scan request → Agree r s (perform w c { r with format := .text })
        (perform w c { r with format := .json }) files errors failures) ∧
      ∀ r r' : Request, r.command = .scan request → r'.command = .scan request →
        (perform w c r').code = (perform w c r).code := by
  have hperform : ∀ r : Request, r.command = .scan request →
      perform w c r = scanResult r (session w c request) request.failOnFindings := by
    intro r hr
    rw [perform, hr]
  intro s
  refine ⟨s.reports.flatMap (·.files), s.errors.map FileFailure.entry,
    (s.reports.flatMap (·.failures)).map FileFailure.entry, fun r hr => ?_, fun r r' hr hr' => ?_⟩
  · rw [hperform { r with format := .text } hr, hperform { r with format := .json } hr]
    exact agree_scanResult r s _
  · rw [hperform r hr, hperform r' hr', code_scanResult, code_scanResult]

end CommandLine

end PrototypeScan
