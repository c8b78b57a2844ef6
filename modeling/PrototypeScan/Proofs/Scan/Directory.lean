import PrototypeScan.Proofs.Files.Listed
import PrototypeScan.Scan.Scanner

/-!
A scan of a directory is a scan of each listed file. The report has the files that could be scanned and
those that could not, both in the order of the listing and each one with what a scan of its path alone
gives, so that it depends neither on other files nor on how many are under way at a time.
-/
namespace PrototypeScan

theorem total_map_length {α β : Type} (f : α → List β) (l : List α) :
    total (l.map fun a => (f a).length) = (l.flatMap f).length := by
  induction l with
  | nil => rfl
  | cons a l ih => rw [List.map_cons, total_cons, ih, List.flatMap_cons, List.length_append]

namespace FileOutcome

theorem path_of_report? (o : FileOutcome) (f : FileReport) (h : o.report? = some f) : f.path = o.1 := by
  obtain ⟨path, result⟩ := o
  cases result <;> cases h
  rfl

theorem path_of_failure? (o : FileOutcome) (f : FileFailure) (h : o.failure? = some f) : f.path = o.1 := by
  obtain ⟨path, result⟩ := o
  cases result <;> cases h
  rfl

end FileOutcome

namespace Report

/-- The report on listed files that says of each one what a scan of its path alone gives. -/
structure Partitions (r : Report) (listed : List SourceFile)
    (alone : String → Except Scan.Error FileReport) : Prop where
  nodup : (listed.map (·.path)).Nodup
  once : (r.files.map (·.path) ++ r.failures.map (·.path)).Perm (listed.map (·.path))
  files : r.files = listed.filterMap fun f => match alone f.path with
    | .ok report => some ⟨f.path, report.findings⟩
    | .error _ => none
  failures : r.failures = listed.filterMap fun f => match alone f.path with
    | .ok _ => none
    | .error e => some ⟨f.path, e⟩
  filesScanned : r.filesScanned = r.files.length
  findingCount : r.findingCount = (r.files.flatMap (·.findings)).length
  hasFindings : r.hasFindings = true ↔ 0 < r.findingCount

theorem findingCount_eq (r : Report) : r.findingCount = (r.files.flatMap (·.findings)).length :=
  total_map_length FileReport.findings r.files

theorem hasFindings_iff (r : Report) : r.hasFindings = true ↔ 0 < r.findingCount := by
  rw [findingCount_eq, List.length_pos_iff_exists_mem, hasFindings, List.any_eq_true]
  constructor
  · rintro ⟨f, hf, hfindings⟩
    have hne : f.findings ≠ [] := by simpa using hfindings
    obtain ⟨finding, hfinding⟩ := List.exists_mem_of_ne_nil _ hne
    exact ⟨finding, List.mem_flatMap.2 ⟨f, hf, hfinding⟩⟩
  · rintro ⟨finding, hfinding⟩
    obtain ⟨f, hf, hmem⟩ := List.mem_flatMap.1 hfinding
    have hne := List.ne_nil_of_mem hmem
    exact ⟨f, hf, by simpa using hne⟩

theorem paths_ofOutcomes (root : String) (outcomes : List FileOutcome) :
    ((ofOutcomes root outcomes).files.map (·.path) ++
      (ofOutcomes root outcomes).failures.map (·.path)).Perm (outcomes.map (·.1)) := by
  unfold ofOutcomes
  induction outcomes with
  | nil => exact .refl _
  | cons o os ih =>
    obtain ⟨path, result⟩ := o
    cases result with
    | ok findings => exact ih.cons path
    | error e => exact List.perm_middle.trans (ih.cons path)

/-- A report without what it says of one path. -/
def without (r : Report) (path : String) : Report where
  root := r.root
  filesScanned := (r.files.filter fun f => f.path ≠ path).length
  files := r.files.filter fun f => f.path ≠ path
  failures := r.failures.filter fun f => f.path ≠ path

/-- What is taken of the outcomes at other paths is what is taken of all outcomes, but for that path. -/
theorem filter_filterMap_outcomes {α : Type} {take : FileOutcome → Option α} {pathOf : α → String}
    (h : ∀ o a, take o = some a → pathOf a = o.1) (path : String) (outcomes : List FileOutcome) :
    (outcomes.filterMap take).filter (fun a => pathOf a ≠ path) =
      (outcomes.filter fun o => o.1 ≠ path).filterMap take := by
  rw [List.filter_filterMap, List.filterMap_filter]
  refine List.filterMap_congr fun o _ => ?_
  cases ha : take o with
  | none => rw [Option.filter_none, ite_self]
  | some a => rw [Option.filter_some, h o a ha]

theorem without_ofOutcomes (root path : String) (outcomes : List FileOutcome) :
    (ofOutcomes root outcomes).without path =
      ofOutcomes root (outcomes.filter fun o => o.1 ≠ path) := by
  have hfiles := filter_filterMap_outcomes FileOutcome.path_of_report? path outcomes
  have hfailures := filter_filterMap_outcomes FileOutcome.path_of_failure? path outcomes
  simp only [without, ofOutcomes, hfiles, hfailures]

end Report

namespace Scanner

variable {s : Scanner} {w w' : Workspace}

/-- What becomes of a listed file is what a scan of its path alone gives. -/
theorem single_eq {depth : Nat} {root : String} {t : FileTree} {f : SourceFile}
    (h : f ∈ s.listing.visit depth root t) :
    s.single w f.path = (s.file w f).map fun findings => ⟨f.path, findings⟩ := by
  rw [single, Listing.classify?_of_mem_visit h]

theorem partitions_ofOutcomes {root : String} {t : FileTree} (ht : t.isProper) :
    let listed := s.listing.visit 0 root (Listing.sorted t)
    (Report.ofOutcomes root (listed.map fun f => (f.path, s.file w f))).Partitions listed
      (s.single w) := by
  intro listed
  have hpaths := Report.paths_ofOutcomes root (listed.map fun f => (f.path, s.file w f))
  rw [List.map_map] at hpaths
  refine ⟨Listing.nodup_paths_visit (Listing.isProper_sorted ht), hpaths, ?_, ?_, rfl,
    Report.findingCount_eq _, Report.hasFindings_iff _⟩
  · change (listed.map fun f => (f.path, s.file w f)).filterMap FileOutcome.report? = _
    rw [List.filterMap_map]
    refine List.filterMap_congr fun f hf => ?_
    rw [single_eq hf, Function.comp_apply]
    cases s.file w f <;> rfl
  · change (listed.map fun f => (f.path, s.file w f)).filterMap FileOutcome.failure? = _
    rw [List.filterMap_map]
    refine List.filterMap_congr fun f hf => ?_
    rw [single_eq hf, Function.comp_apply]
    cases s.file w f <;> rfl

theorem directory_eq {pool : Pool FileOutcome} (hpool : pool.InOrder) {root : String}
    {listed : List SourceFile} (hlisted : s.listing.files w root = .ok listed)
    (havailable : s.provider.check w = .ok ()) :
    s.directory pool w root = .ok (.ofOutcomes root (listed.map fun f => (f.path, s.file w f))) := by
  have hwidth : 0 < s.width := Nat.lt_of_lt_of_le Nat.zero_lt_one (Nat.le_max_right _ _)
  have hcheck : (if listed.isEmpty then .ok () else s.provider.check w) =
      (.ok () : Except ParseError Unit) := by
    rw [havailable, ite_self]
  simp only [directory, hlisted, hcheck, hpool _ _ hwidth, List.map_map]
  rfl

theorem scanIn_eq_directory (pool : Pool FileOutcome) {root : String}
    (hdirectory : w.isDirectory root = true) : s.scanIn pool w root = s.directory pool w root := by
  have hcontains : w.contains root = true := by
    unfold Workspace.isDirectory at hdirectory
    unfold Workspace.contains
    cases h : (w.find root).toOption with
    | none => rw [h] at hdirectory; cases hdirectory
    | some t => rfl
  simp [scanIn, hcontains, hdirectory]

/-- A report says how many files it has, whatever was scanned and in whatever pool. -/
theorem filesScanned_of_scanIn {pool : Pool FileOutcome} {root : String} {r : Report}
    (h : s.scanIn pool w root = .ok r) : r.filesScanned = r.files.length := by
  unfold scanIn directory at h
  split at h
  · cases h
  split at h
  · split at h
    · cases h
    split at h
    · cases h
    · obtain rfl := Except.ok.inj h
      rfl
  · cases hsingle : s.single w root with
    | error e => rw [hsingle] at h; cases h
    | ok f =>
      rw [hsingle] at h
      obtain rfl := Except.ok.inj h
      rfl

/-- The same scanner with another bound on how many files are under way at a time. -/
def withMaxConcurrent (s : Scanner) (n : Nat) : Scanner :=
  { s with config := { s.config with scan := { s.config.scan with maxConcurrent := n } } }

/-- Another state of the files, in which a directory lists the same and of the listed files only the one at
a path may hold something else. -/
structure ChangedAt (s : Scanner) (w w' : Workspace) (root path : String) : Prop where
  directory : w'.isDirectory root = true
  available : s.provider.check w' = .ok ()
  listing : s.listing.files w' root = s.listing.files w root
  size : ∀ fs, s.listing.files w root = .ok fs → ∀ f ∈ fs, f.path ≠ path → w'.size f.path = w.size f.path
  read : ∀ fs, s.listing.files w root = .ok fs → ∀ f ∈ fs, f.path ≠ path → w'.read f.path = w.read f.path
  parse : s.provider.parse w' = s.provider.parse w

theorem file_congr {f : SourceFile} (hsize : w'.size f.path = w.size f.path)
    (hread : w'.read f.path = w.read f.path)
    (hparse : s.provider.parse w' = s.provider.parse w) :
    s.file w' f = s.file w f := by
  have hsource (text : String) : s.source w' f text = s.source w f text := by
    unfold source
    rw [hparse]
  unfold file checkSize
  rw [hsize, hread]
  simp only [hsource]

theorem ChangedAt.outcomes_eq {root path : String} (h : ChangedAt s w w' root path)
    {listed : List SourceFile} (hlisted : s.listing.files w root = .ok listed) :
    (listed.map fun f => (f.path, s.file w' f)).filter (fun o => o.1 ≠ path) =
      (listed.map fun f => (f.path, s.file w f)).filter fun o => o.1 ≠ path := by
  rw [List.filter_map, List.filter_map]
  refine List.map_congr_left fun f hf => ?_
  obtain ⟨hmem, hne⟩ := List.mem_filter.1 hf
  have hpath : f.path ≠ path := by simpa using hne
  rw [file_congr (h.size _ hlisted f hmem hpath) (h.read _ hlisted f hmem hpath) h.parse]

/-- A scan of a directory that can be read succeeds. The report says of each listed file what a scan of its
path alone gives; neither the bound on files that are under way at a time nor a change of another file makes
a difference to it. -/
theorem scanIn_directory {pool : Pool FileOutcome} (hpool : pool.InOrder) (s : Scanner) (w : Workspace)
    {root : String} {t : FileTree} (hroot : w.find root = .ok t) (hdirectory : t.isDirectory)
    (hproper : t.isProper) (havailable : s.provider.check w = .ok ()) :
    ∃ listed report, s.listing.files w root = .ok listed ∧
      s.scanIn pool w root = .ok report ∧ report.root = root ∧
      report.Partitions listed (s.single w) ∧
      (∀ (pool' : Pool FileOutcome) (n : Nat), pool'.InOrder →
        (s.withMaxConcurrent n).scanIn pool' w root = .ok report) ∧
      ∀ (w' : Workspace) (path : String), s.ChangedAt w w' root path →
        ∃ report', s.scanIn pool w' root = .ok report' ∧
          report'.without path = report.without path := by
  have hisDirectory : w.isDirectory root = true := by
    rw [Workspace.isDirectory, hroot]
    exact hdirectory
  have hlisted : s.listing.files w root = .ok (s.listing.visit 0 root (Listing.sorted t)) := by
    rw [Listing.files, hroot]
    rfl
  refine ⟨_, _, hlisted, ?_, rfl, partitions_ofOutcomes hproper, ?_, ?_⟩
  · rw [scanIn_eq_directory pool hisDirectory, directory_eq hpool hlisted havailable]
  · intro pool' n hpool'
    rw [scanIn_eq_directory pool' hisDirectory]
    exact directory_eq hpool' hlisted havailable
  · intro w' path h
    have hscan := directory_eq hpool (h.listing.trans hlisted) h.available
    refine ⟨_, (scanIn_eq_directory pool h.directory).trans hscan, ?_⟩
    rw [Report.without_ofOutcomes, Report.without_ofOutcomes, h.outcomes_eq hlisted]

/-- A directory with a document, a tree, and a file that is neither. -/
def documents (text : String) : FileTree :=
  let file (s : String) : FileTree := .file ⟨.text s, false⟩
  .directory [("a.json", file text), ("b.json", file "\x7b\"type\":\"Program\"\x7d"), ("c.txt", file "")]

/-- A scanner of trees whose setting lets no file be under way. -/
def idle : Scanner := (ofConfig .default true).withMaxConcurrent 0

theorem files_documents (text : String) :
    idle.listing.files ⟨.directory [("p", documents text)]⟩ "p" =
      .ok [⟨"p/a.json", .default⟩, ⟨"p/b.json", .default⟩] := by
  have hnames : (documents text).entries.Pairwise fun a b => decide (a.1 ≤ b.1) := by
    simp [documents, FileTree.entries]
  have hsorted : Listing.sorted (documents text) = documents text :=
    congrArg FileTree.directory (List.mergeSort_of_pairwise hnames)
  have hfind : (Workspace.mk (.directory [("p", documents text)])).find "p" = .ok (documents text) :=
    rfl
  rw [Listing.files, hfind, Except.map, hsorted]
  rfl

/-- The first document is broken, and then it is no tree. -/
theorem scanIn_directory_documents :
    let s := idle
    let w := Workspace.mk (.directory [("p", documents "[")])
    let w' := Workspace.mk (.directory [("p", documents "7")])
    w.find "p" = .ok (documents "[") ∧ (documents "[").isDirectory ∧ (documents "[").isProper ∧
    s.provider.check w = .ok () ∧ s.ChangedAt w w' "p" "p/a.json" ∧
    ∃ listed report, s.listing.files w "p" = .ok listed ∧ s.scanIn .inTurn w "p" = .ok report ∧
      report.Partitions listed (s.single w) ∧
      (∀ n, (s.withMaxConcurrent n).scanIn .inTurn w "p" = .ok report) ∧
      ∃ report', s.scanIn .inTurn w' "p" = .ok report' ∧
        report'.without "p/a.json" = report.without "p/a.json" := by
  intro s w w'
  have hroot : w.find "p" = .ok (documents "[") := rfl
  have hdirectory : (documents "[").isDirectory := rfl
  have hproper : (documents "[").isProper := by decide
  have hchanged : s.ChangedAt w w' "p" "p/a.json" := by
    have hother : ∀ fs, s.listing.files w "p" = .ok fs → ∀ f ∈ fs, f.path ≠ "p/a.json" →
        f.path = "p/b.json" := by
      intro fs hfs f hf hne
      obtain rfl := Except.ok.inj ((files_documents "[").symm.trans hfs)
      simp only [List.mem_cons, List.not_mem_nil, or_false] at hf
      rcases hf with rfl | rfl
      · exact absurd rfl hne
      · rfl
    refine ⟨rfl, rfl, ?_, ?_, ?_, rfl⟩
    · exact (files_documents "7").trans (files_documents "[").symm
    · intro fs hfs f hf hne
      rw [hother fs hfs f hf hne]
      rfl
    · intro fs hfs f hf hne
      rw [hother fs hfs f hf hne]
      rfl
  obtain ⟨listed, report, hfiles, hscan, -, hparts, hwidth, hchange⟩ :=
    scanIn_directory Pool.inOrder_inTurn s w hroot hdirectory hproper rfl
  exact ⟨hroot, hdirectory, hproper, rfl, hchanged, listed, report, hfiles, hscan, hparts,
    fun n => hwidth .inTurn n Pool.inOrder_inTurn, hchange w' _ hchanged⟩

end Scanner

end PrototypeScan
