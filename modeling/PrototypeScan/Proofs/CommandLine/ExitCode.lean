import PrototypeScan.CommandLine.Run
import PrototypeScan.Proofs.Estree.Nested
import PrototypeScan.Proofs.Scan.Directory
import PrototypeScan.Proofs.Scan.Reference

/-!
The exit code of a scan says the worst that happened anywhere: to a path, or to a file in the report on a
path. Findings count only where nothing failed, so a scan that ends well has looked at every file that its
paths stand for.
-/
namespace PrototypeScan

theorem total_pos_iff {ns : List Nat} : 0 < total ns ↔ ∃ n ∈ ns, 0 < n := by
  induction ns with
  | nil => simp [total]
  | cons n ns ih =>
    simp only [total_cons, List.mem_cons, exists_eq_or_imp, ← ih]
    omega

namespace Scan.Error

/-- Whether a source or a tree was refused: it could not be parsed, not in time or not as JSON, or the tree is
none or exceeds a limit. -/
def isRefusal : Scan.Error → Bool
  | parse (.failed _ _) | parse (.timeout _) | parse (.invalidJson _ _) => true
  | tree (.invalid _) | tree (.tooLarge _ _) | tree (.tooDeep _ _) => true
  | notFound _ | unsupported _ | io _ _ | fileTooLarge _ _ _ | parse (.unavailable _) => false

theorem isInput_eq (e : Scan.Error) : e.isInput = !e.isRefusal := by
  cases e with
  | tree e => cases e <;> rfl
  | parse e => cases e <;> rfl
  | _ => rfl

end Scan.Error

namespace Session

variable {s s' : Session} {failOnFindings : Bool}

/-- What is wrong with a path, or with a file in the report on a path. -/
def FailsWith (s : Session) (e : Scan.Error) : Prop :=
  ∃ o ∈ s, o.result = .error e ∨ ∃ r, o.result = .ok r ∧ ∃ f ∈ r.failures, f.error = e

/-- Something failed. -/
def Failed (s : Session) : Prop := ∃ e, s.FailsWith e

/-- A source or a tree was refused. -/
def Refused (s : Session) : Prop := ∃ e, s.FailsWith e ∧ e.isRefusal

/-- Something was found in a file. -/
def Found (s : Session) : Prop :=
  ∃ o ∈ s, ∃ r, o.result = .ok r ∧ ∃ f ∈ r.files, f.findings ≠ []

theorem mem_reports_iff {r : Report} : r ∈ s.reports ↔ ∃ o ∈ s, o.result = .ok r := by
  rw [reports, List.mem_filterMap]
  refine exists_congr fun o => and_congr_right fun _ => ?_
  cases o.result <;> simp [Except.toOption]

theorem mem_errors_iff {f : FileFailure} :
    f ∈ s.errors ↔ ∃ o ∈ s, o.path = f.path ∧ o.result = .error f.error := by
  obtain ⟨path, e⟩ := f
  rw [errors, List.mem_filterMap]
  refine exists_congr fun o => and_congr_right fun _ => ?_
  cases o.result <;> simp

theorem failsWith_iff {e : Scan.Error} : s.FailsWith e ↔ ∃ f ∈ s.failures, f.error = e := by
  constructor
  · rintro ⟨o, ho, hresult | ⟨r, hresult, f, hf, hfe⟩⟩
    · exact ⟨⟨o.path, e⟩, List.mem_append_left _ (mem_errors_iff.2 ⟨o, ho, rfl, hresult⟩), rfl⟩
    · have hr : r ∈ s.reports := mem_reports_iff.2 ⟨o, ho, hresult⟩
      exact ⟨f, List.mem_append_right _ (List.mem_flatMap.2 ⟨r, hr, hf⟩), hfe⟩
  · rintro ⟨f, hf, rfl⟩
    rcases List.mem_append.1 hf with herror | hreport
    · obtain ⟨o, ho, -, hresult⟩ := mem_errors_iff.1 herror
      exact ⟨o, ho, .inl hresult⟩
    · obtain ⟨r, hr, hfr⟩ := List.mem_flatMap.1 hreport
      obtain ⟨o, ho, hresult⟩ := mem_reports_iff.1 hr
      exact ⟨o, ho, .inr ⟨r, hresult, f, hfr, rfl⟩⟩

theorem failed_iff : s.Failed ↔ s.failures ≠ [] := by
  constructor
  · rintro ⟨e, he⟩
    obtain ⟨f, hf, -⟩ := failsWith_iff.1 he
    exact List.ne_nil_of_mem hf
  · intro hne
    obtain ⟨f, hf⟩ := List.exists_mem_of_ne_nil _ hne
    exact ⟨f.error, failsWith_iff.2 ⟨f, hf, rfl⟩⟩

theorem refused_iff : s.Refused ↔ ∃ f ∈ s.failures, f.error.isRefusal := by
  constructor
  · rintro ⟨e, he, hrefusal⟩
    obtain ⟨f, hf, rfl⟩ := failsWith_iff.1 he
    exact ⟨f, hf, hrefusal⟩
  · rintro ⟨f, hf, hrefusal⟩
    exact ⟨f.error, failsWith_iff.2 ⟨f, hf, rfl⟩, hrefusal⟩

theorem found_iff : s.Found ↔ 0 < s.findingCount := by
  rw [findingCount, total_pos_iff]
  constructor
  · rintro ⟨o, ho, r, hresult, f, hf, hne⟩
    refine ⟨_, List.mem_map_of_mem (mem_reports_iff.2 ⟨o, ho, hresult⟩), ?_⟩
    rw [Report.findingCount, total_pos_iff]
    exact ⟨_, List.mem_map_of_mem hf, List.length_pos_iff.2 hne⟩
  · rintro ⟨n, hn, hpos⟩
    obtain ⟨r, hr, rfl⟩ := List.mem_map.1 hn
    obtain ⟨o, ho, hresult⟩ := mem_reports_iff.1 hr
    rw [Report.findingCount, total_pos_iff] at hpos
    obtain ⟨m, hm, hlength⟩ := hpos
    obtain ⟨f, hf, rfl⟩ := List.mem_map.1 hm
    exact ⟨o, ho, r, hresult, f, hf, List.length_pos_iff.1 hlength⟩

instance : Decidable s.Failed :=
  decidable_of_iff (s.failures.isEmpty = false) (by rw [failed_iff, List.isEmpty_eq_false_iff])

instance : Decidable s.Refused :=
  decidable_of_iff (s.failures.any (·.error.isRefusal)) (by rw [refused_iff, List.any_eq_true])

instance : Decidable s.Found := decidable_of_iff (0 < s.findingCount) found_iff.symm

/-- The code is the largest one that any failure leads to. -/
theorem exitCode_of_failed (failOnFindings : Bool) (h : s.Failed) :
    (∃ f ∈ s.failures, s.exitCode failOnFindings = if f.error.isRefusal then 3 else 2) ∧
      ∀ f ∈ s.failures, (if f.error.isRefusal then 3 else 2) ≤ s.exitCode failOnFindings := by
  have hcodes : (s.failures.map fun f => if f.error.isInput then 2 else 3) =
      s.failures.map fun f => if f.error.isRefusal then 3 else 2 := by
    refine List.map_congr_left fun f _ => ?_
    rw [Scan.Error.isInput_eq]
    cases f.error.isRefusal <;> rfl
  have hne : (s.failures.map fun f => if f.error.isRefusal then 3 else 2) ≠ [] :=
    mt List.map_eq_nil_iff.1 (failed_iff.1 h)
  obtain ⟨code, hcode⟩ := Option.ne_none_iff_exists'.1 (mt List.max?_eq_none_iff.1 hne)
  obtain ⟨hmem, hmax⟩ := List.max?_eq_some_iff.1 hcode
  have hexit : s.exitCode failOnFindings = code := by
    rw [exitCode, hcodes, hcode]
  rw [hexit]
  constructor
  · obtain ⟨f, hf, hcode⟩ := List.mem_map.1 hmem
    exact ⟨f, hf, hcode.symm⟩
  · exact fun f hf => hmax _ (List.mem_map_of_mem hf)

theorem exitCode_eq (s : Session) (failOnFindings : Bool) :
    s.exitCode failOnFindings =
      if s.Refused then 3 else if s.Failed then 2
      else if failOnFindings ∧ s.Found then 1 else 0 := by
  by_cases hfailed : s.Failed
  · obtain ⟨⟨g, hg, hcode⟩, hmax⟩ := exitCode_of_failed failOnFindings hfailed
    rw [if_pos hfailed]
    split
    · next hrefused =>
      obtain ⟨f, hf, hrefusal⟩ := refused_iff.1 hrefused
      have hge := hmax f hf
      rw [if_pos hrefusal] at hge
      split at hcode <;> omega
    · next hrefused =>
      rw [hcode, if_neg fun hrefusal => hrefused (refused_iff.2 ⟨g, hg, hrefusal⟩)]
  · have hnil : s.failures = [] := not_not.1 (mt failed_iff.2 hfailed)
    have hrefused : ¬ s.Refused := fun ⟨e, he, _⟩ => hfailed ⟨e, he⟩
    rw [if_neg hrefused, if_neg hfailed, exitCode, hnil]
    simp [found_iff]

/-- The code depends on what became of the paths, and not on how often or in which order. -/
theorem exitCode_congr (h : ∀ o, o ∈ s' ↔ o ∈ s) :
    s'.exitCode failOnFindings = s.exitCode failOnFindings := by
  have hfails (e : Scan.Error) : s'.FailsWith e ↔ s.FailsWith e :=
    exists_congr fun o => and_congr_left fun _ => h o
  have hrefused : s'.Refused ↔ s.Refused := exists_congr fun e => and_congr_left fun _ => hfails e
  have hfailed : s'.Failed ↔ s.Failed := exists_congr hfails
  have hfound : s'.Found ↔ s.Found := exists_congr fun o => and_congr_left fun _ => h o
  simp only [exitCode_eq, hrefused, hfailed, hfound]

theorem not_failed_of_exitCode (h : s.exitCode failOnFindings = 0) : ¬ s.Failed := by
  intro hfailed
  rw [exitCode_eq, if_pos hfailed] at h
  by_cases hrefused : s.Refused
  · rw [if_pos hrefused] at h
    cases h
  · rw [if_neg hrefused] at h
    cases h

end Session

theorem Report.paths_of_failures_eq_nil {root : String} {outcomes : List FileOutcome}
    (h : (ofOutcomes root outcomes).failures = []) :
    (ofOutcomes root outcomes).files.map (·.path) = outcomes.map (·.1) := by
  unfold ofOutcomes at h ⊢
  induction outcomes with
  | nil => rfl
  | cons o os ih =>
    obtain ⟨path, result⟩ := o
    cases result with
    | ok findings => exact congrArg (path :: ·) (ih h)
    | error e => cases h

namespace Scanner

/-- The paths of the files that a path stands for: of a directory the listed ones, of anything else the path
itself. -/
def targets (s : Scanner) (w : Workspace) (path : String) : List String :=
  if w.isDirectory path then
    match s.listing.files w path with
    | .ok fs => fs.map (·.path)
    | .error _ => []
  else [path]

/-- A report without failures has all files that its path stands for. -/
theorem paths_of_scan {s : Scanner} {w : Workspace} {path : String} {r : Report}
    (h : s.scan w path = .ok r) (hfailures : r.failures = []) :
    r.files.map (·.path) = s.targets w path := by
  have hwidth : 0 < s.width := Nat.lt_of_lt_of_le Nat.zero_lt_one (Nat.le_max_right _ _)
  unfold scan scanIn at h
  unfold targets
  split at h
  · cases h
  · split at h
    · next hdirectory =>
      rw [if_pos hdirectory]
      unfold directory at h
      split at h
      · cases h
      · next fs hfs =>
        split at h
        · cases h
        · obtain rfl := Except.ok.inj h
          rw [Report.paths_of_failures_eq_nil hfailures, Pool.inOrder_inTurn _ _ hwidth]
          simp only [hfs, List.map_map]
          rfl
    · next hdirectory =>
      rw [if_neg hdirectory]
      unfold single at h
      split at h
      · cases h
      · next f hclass =>
        cases hfile : s.file w f with
        | error e => rw [hfile] at h; cases h
        | ok findings =>
          rw [hfile] at h
          obtain rfl := Except.ok.inj h
          rw [← Listing.path_of_classify? hclass]
          rfl

/-- The document of a program without statements. -/
def emptyProgram : String := Estree.nestedText [] "Program"

theorem emptyProgram_eq : emptyProgram = "\x7b\"type\":\"Program\"\x7d" := by decide

theorem read_emptyProgram : Estree.read emptyProgram = .ok (.node (.ofKind "Program")) := by
  unfold emptyProgram
  rw [Estree.read_nestedText (fun _ h => absurd h List.not_mem_nil) (by decide)]
  rfl

theorem source_emptyProgram (w : Workspace) (f : SourceFile) :
    (ofConfig .default true).source w f emptyProgram = .ok [] := by
  have hparse : (ofConfig .default true).provider.parse w f.path emptyProgram f.kind =
      .ok (.node (.ofKind "Program")) := by
    change Provider.estreeJson.parse w f.path emptyProgram f.kind = _
    simp only [Provider.estreeJson, read_emptyProgram]
  have htree : Scan.tree (ofConfig .default true).rules (.ofKind "Program") = [] := by
    rw [Scan.tree_eq_collected]
    rfl
  have hlimited : Scan.limited (ofConfig .default true).config.scan.limits (ofConfig .default true).rules
      (.node (.ofKind "Program")) = .ok [] := congrArg Except.ok htree
  simp only [source, hparse, hlimited]

theorem file_emptyProgram {w : Workspace} {f : SourceFile}
    (h : w.find f.path = .ok (.file ⟨.text emptyProgram, false⟩)) : (ofConfig .default true).file w f = .ok [] := by
  have hsize : w.size f.path = .ok emptyProgram.utf8ByteSize := by
    rw [Workspace.size, h]
    rfl
  have hcheck : (ofConfig .default true).checkSize w f.path = .ok () := by
    simp only [checkSize, hsize]
    rfl
  have hread : w.read f.path = .ok (.text emptyProgram) := by rw [Workspace.read, h]
  simp only [file, hcheck, hread]
  exact source_emptyProgram w f

/-- A directory with two such documents. -/
theorem scan_documents : (ofConfig .default true).scan ⟨.directory [("p", documents emptyProgram)]⟩ "p" =
    .ok (.ofOutcomes "p" [("p/a.json", .ok []), ("p/b.json", .ok [])]) := by
  have hlisted : (ofConfig .default true).listing.files ⟨.directory [("p", documents emptyProgram)]⟩ "p" =
      .ok [⟨"p/a.json", .default⟩, ⟨"p/b.json", .default⟩] := files_documents emptyProgram
  have hscan := directory_eq Pool.inOrder_inTurn hlisted rfl
  rw [scan, scanIn_eq_directory _ rfl, hscan, List.map_cons, List.map_singleton, file_emptyProgram rfl,
    file_emptyProgram (by rw [emptyProgram_eq]; rfl)]

end Scanner

namespace CommandLine

/-- The scanner for a request. -/
def scanner (c : Config) (r : ScanRequest) : Scanner :=
  .ofConfig { c with parser := { c.parser with frontend := r.frontend.getD c.parser.frontend } } r.preParsed

theorem mem_session {w : Workspace} {c : Config} {r : ScanRequest} {path : String} (h : path ∈ r.paths) :
    ⟨path, (scanner c r).scan w path⟩ ∈ session w c r :=
  List.mem_map_of_mem (f := fun path => PathOutcome.mk path ((scanner c r).scan w path)) h

theorem code_scanResult (r : Request) (s : Session) (failOnFindings : Bool) :
    (scanResult r s failOnFindings).code = s.exitCode failOnFindings := by
  unfold scanResult
  cases r.format <;> rfl

/-- How a scan ends, in every format: with 3 if a source or a tree was refused anywhere, or else with 2 if
anything failed, or else with 1 if findings are to count and there is one, or else with 0. Neither the order
of the paths nor a path given twice makes a difference, and a run that ends with 0 has scanned every file that
a path stands for. -/
theorem scanResult_code (r : Request) (s : Session) (failOnFindings : Bool) :
    let code := (scanResult r s failOnFindings).code
    (code = if s.Refused then 3 else if s.Failed then 2
      else if failOnFindings ∧ s.Found then 1 else 0) ∧
      (∀ (r' : Request) (s' : Session), (∀ o, o ∈ s' ↔ o ∈ s) →
        (scanResult r' s' failOnFindings).code = code) ∧
      ∀ (w : Workspace) (c : Config) (request : ScanRequest), s = session w c request → code = 0 →
        ∀ path ∈ request.paths, ∃ report, (scanner c request).scan w path = .ok report ∧
          report.failures = [] ∧ report.files.map (·.path) = (scanner c request).targets w path := by
  intro code
  refine ⟨(code_scanResult r s _).trans (Session.exitCode_eq s failOnFindings), ?_, ?_⟩
  · intro r' s' h
    rw [code_scanResult, Session.exitCode_congr h]
    exact (code_scanResult r s _).symm
  · rintro w c request rfl hzero path hpath
    have hfailed := Session.not_failed_of_exitCode ((code_scanResult r _ _).symm.trans hzero)
    cases hscan : (scanner c request).scan w path with
    | error e => exact absurd ⟨e, _, mem_session hpath, .inl hscan⟩ hfailed
    | ok report =>
      have hfailures : report.failures = [] := by
        apply List.eq_nil_iff_forall_not_mem.2
        intro f hf
        exact hfailed ⟨f.error, _, mem_session hpath, .inr ⟨report, hscan, f, hf, rfl⟩⟩
      exact ⟨report, rfl, hfailures, Scanner.paths_of_scan hscan hfailures⟩

theorem scanResult_code_documents :
    let w := Workspace.mk (.directory [("p", Scanner.documents Scanner.emptyProgram)])
    let request : ScanRequest := ⟨["p"], none, true, true⟩
    (scanResult ⟨.text, false, false, none, .scan request⟩ (session w .default request) true).code = 0 ∧
      ∃ report, (scanner .default request).scan w "p" = .ok report ∧ report.failures = [] ∧
        report.files.map (·.path) = ["p/a.json", "p/b.json"] := by
  intro w request
  have hscan : (scanner .default request).scan w "p" =
      .ok (.ofOutcomes "p" [("p/a.json", .ok []), ("p/b.json", .ok [])]) := Scanner.scan_documents
  have hsession : session w .default request =
      [⟨"p", .ok (.ofOutcomes "p" [("p/a.json", .ok []), ("p/b.json", .ok [])])⟩] :=
    congrArg (fun result => [PathOutcome.mk "p" result]) hscan
  have hcode : (scanResult ⟨.text, false, false, none, .scan request⟩ (session w .default request) true).code = 0 := by
    rw [hsession]
    rfl
  obtain ⟨-, -, hcomplete⟩ :=
    scanResult_code ⟨.text, false, false, none, .scan request⟩ (session w .default request) true
  obtain ⟨report, hreport, hfailures, -⟩ := hcomplete w .default request rfl hcode "p" List.mem_cons_self
  obtain rfl := Except.ok.inj (hscan.symm.trans hreport)
  exact ⟨hcode, _, hreport, hfailures, rfl⟩

end CommandLine

end PrototypeScan
