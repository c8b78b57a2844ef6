import PrototypeScan.Proofs.Files.Listed
import PrototypeScan.Proofs.Text.ByteOrder
import PrototypeScan.Proofs.Tree.Fields

/-!
A listing gives all files that it should and no others, and gives them in the order of their paths, compared
part by part and each part by its bytes. Which files these are is read off the tree by names alone: a
regular file counts if there are not too many names on the way to it and no directory on the way, other
than the one that the listing starts at, has a name that is left out.
-/
namespace PrototypeScan

namespace Text

theorem parts_append_separator (s : Char) (cs ds : List Char) :
    parts s (cs ++ s :: ds) = parts s cs ++ parts s ds := by
  induction cs with
  | nil => simp [parts]
  | cons c cs ih =>
    rw [List.cons_append, parts, parts, ih]
    split
    · rfl
    · cases hparts : parts s cs with
      | nil => exact absurd hparts (parts_ne_nil s cs)
      | cons p ps => rfl

theorem parts_of_not_mem {s : Char} {cs : List Char} (h : s ∉ cs) : parts s cs = [cs] := by
  induction cs with
  | nil => rfl
  | cons c cs ih =>
    rw [List.mem_cons, not_or] at h
    rw [parts, if_neg (Ne.symm h.1), ih h.2]

end Text

namespace Path

/-- The parts of a path as bytes. -/
def byteParts (path : String) : List (List UInt8) := (segments path).map Text.bytes

theorem stem_eq (directory : String) :
    stem directory = [] ∨ ∃ cs, stem directory = cs ++ ['/'] := by
  unfold stem
  split
  · exact .inl rfl
  · split
    · next hlast =>
      obtain ⟨cs, hcs⟩ := List.getLast?_eq_some_iff.1 hlast
      exact .inr ⟨cs, hcs⟩
    · exact .inr ⟨_, rfl⟩

theorem segments_below_of_stem {directory name : String} {cs : List Char} (h : isName name)
    (hstem : stem directory = cs ++ ['/']) :
    segments (below directory name) = (Text.parts '/' cs).map String.ofList ++ [name] := by
  rw [segments, Text.splitOn, toList_below, hstem, List.append_assoc, List.singleton_append,
    Text.parts_append_separator, Text.parts_of_not_mem (slash_not_mem_of_isName h), List.map_append,
    List.map_singleton, String.ofList_toList]

/-- The paths of the entries of one directory differ in their last parts only. -/
theorem exists_segments_below (directory : String) :
    ∃ front, ∀ name, isName name → segments (below directory name) = front ++ [name] := by
  rcases stem_eq directory with hstem | ⟨cs, hstem⟩
  · refine ⟨[], fun name h => ?_⟩
    rw [segments, Text.splitOn, toList_below, hstem, List.nil_append,
      Text.parts_of_not_mem (slash_not_mem_of_isName h), List.map_singleton, String.ofList_toList]
    rfl
  · exact ⟨_, fun name h => segments_below_of_stem h hstem⟩

theorem segments_foldl_below {names : List String} (h : ∀ name ∈ names, isName name) {path : String}
    (hpath : stem path = path.toList ++ ['/']) :
    segments (names.foldl below path) = segments path ++ names := by
  induction names generalizing path with
  | nil => rw [List.foldl_nil, List.append_nil]
  | cons name names ih =>
    rw [List.forall_mem_cons] at h
    rw [List.foldl_cons, ih h.2 (stem_below h.1 path), segments_below_of_stem h.1 hpath,
      List.append_assoc, List.singleton_append]
    rfl

theorem byteParts_lt {path path' name name' : String} {front rest rest' : List String}
    (hpath : segments path = front ++ name :: rest)
    (hpath' : segments path' = front ++ name' :: rest') (h : name < name') :
    byteParts path < byteParts path' := by
  rw [byteParts, byteParts, hpath, hpath', List.map_append, List.map_append]
  apply List.append_left_lt
  rw [List.map_cons, List.map_cons]
  exact List.cons_lt_cons_iff.2 (.inl (Text.bytes_lt_bytes h))

end Path

namespace FileTree

/-- What names lead to, each one that of an entry of what is before it. -/
def at? : List String → FileTree → Option FileTree
  | [], t => some t
  | name :: names, t => (Fields.get? name t.entries).bind (at? names)

/-- Whether names lead to a regular file, and through no directory with a name that is left out. Where they
start from, no name is looked at, and neither is the name of the file. -/
structure Reaches (exclude : List String) (t : FileTree) (names : List String) : Prop where
  file : ∃ f, t.at? names = some (.file f)
  directories : ∀ name ∈ names.dropLast, name ∉ exclude

variable {exclude : List String}

theorem isName_of_at? {t u : FileTree} (ht : t.isProper) {names : List String}
    (h : t.at? names = some u) : ∀ name ∈ names, Path.isName name := by
  induction names generalizing t with
  | nil => exact fun name hname => absurd hname List.not_mem_nil
  | cons name names ih =>
    obtain ⟨t', hget, hat⟩ := Option.bind_eq_some_iff.1 h
    cases t with
    | file f => cases hget
    | device => cases hget
    | directory es =>
      have hentry := (isProper_directory_iff.1 ht).2 _ (Fields.mem_of_get? hget)
      exact List.forall_mem_cons.2 ⟨hentry.1, ih hentry.2 hat⟩

theorem reaches_file (f : File) {names : List String} :
    (file f).Reaches exclude names ↔ names = [] := by
  constructor
  · rintro ⟨⟨g, hg⟩, -⟩
    cases names with
    | nil => rfl
    | cons name names => cases hg
  · rintro rfl
    exact ⟨⟨f, rfl⟩, fun name hname => absurd hname List.not_mem_nil⟩

theorem not_reaches_device {names : List String} : ¬ device.Reaches exclude names := by
  rintro ⟨⟨g, hg⟩, -⟩
  cases names with
  | nil => cases hg
  | cons name names => cases hg

theorem isDirectory_of_at?_cons {t u : FileTree} {name : String} {names : List String}
    (h : t.at? (name :: names) = some u) : t.isDirectory := by
  obtain ⟨t', hget, -⟩ := Option.bind_eq_some_iff.1 h
  cases t with
  | file f => cases hget
  | device => cases hget
  | directory es => rfl

theorem reaches_directory {es : List (String × FileTree)} (h : (es.map (·.1)).Nodup)
    {names : List String} :
    (directory es).Reaches exclude names ↔
      ∃ e ∈ es, ∃ rest, names = e.1 :: rest ∧ ¬ (e.2.isDirectory ∧ e.1 ∈ exclude) ∧
        e.2.Reaches exclude rest := by
  constructor
  · rintro ⟨⟨g, hg⟩, hdirectories⟩
    cases names with
    | nil => cases hg
    | cons name rest =>
      obtain ⟨t, hget, hat⟩ := Option.bind_eq_some_iff.1 hg
      refine ⟨(name, t), Fields.mem_of_get? hget, rest, rfl, ?_, ⟨g, hat⟩, ?_⟩
      · rintro ⟨hdirectory, hexcluded⟩
        cases rest with
        | nil =>
          obtain rfl : t = .file g := Option.some.inj hat
          cases hdirectory
        | cons n rest => exact hdirectories name List.mem_cons_self hexcluded
      · cases rest with
        | nil => exact fun n hn => absurd hn List.not_mem_nil
        | cons n rest => exact fun m hm => hdirectories m (List.mem_cons_of_mem _ hm)
  · rintro ⟨e, he, rest, rfl, hkept, ⟨g, hat⟩, hdirectories⟩
    refine ⟨⟨g, ?_⟩, ?_⟩
    · have hget : Fields.get? e.1 es = some e.2 := (Fields.get?_eq_some_iff h).2 he
      rw [at?, entries, hget]
      exact hat
    · cases rest with
      | nil => exact fun n hn => absurd hn List.not_mem_nil
      | cons n rest =>
        rw [List.dropLast_cons_of_ne_nil (List.cons_ne_nil n rest), List.forall_mem_cons]
        exact ⟨fun hexcluded => hkept ⟨isDirectory_of_at?_cons hat, hexcluded⟩, hdirectories⟩

end FileTree

namespace Listing
open FileTree

variable {l : Listing}

theorem isDirectory_sorted (t : FileTree) : (sorted t).isDirectory = t.isDirectory := by
  cases t <;> rfl

theorem perm_sortedEntries (es : List (String × FileTree)) :
    (byName (sortedEntries es)).Perm (es.map fun e => (e.1, sorted e.2)) := by
  rw [← sortedEntries_eq]
  exact List.mergeSort_perm _ _

/-- Entries with names of their own are sorted strictly. -/
theorem pairwise_byName {es : List (String × FileTree)} (h : (es.map (·.1)).Nodup) :
    (byName (sortedEntries es)).Pairwise fun e e' => e.1 < e'.1 := by
  have hle : (byName (sortedEntries es)).Pairwise fun e e' => decide (e.1 ≤ e'.1) := by
    apply List.pairwise_mergeSort
    · intro a b c hab hbc
      exact decide_eq_true (String.le_trans (of_decide_eq_true hab) (of_decide_eq_true hbc))
    · intro a b
      simpa using String.le_total a.1 b.1
  have hne : (byName (sortedEntries es)).Pairwise fun e e' => e.1 ≠ e'.1 := by
    apply List.pairwise_map.1
    apply ((perm_sortedEntries es).map (·.1)).nodup_iff.2
    rw [List.map_map]
    exact h
  refine (hle.and hne).imp fun {e e'} hboth => ?_
  exact String.not_le.1 fun hge =>
    hboth.2 (String.le_antisymm (of_decide_eq_true hboth.1) hge)

/-- What is listed is what the names say, whatever the entries are sorted by. -/
theorem mem_visit_sorted_iff {t : FileTree} (ht : t.isProper) {depth : Nat} {path : String}
    (hdepth : depth ≤ l.maxDepth) {f : SourceFile} :
    f ∈ l.visit depth path (sorted t) ↔
      ∃ names, depth + names.length ≤ l.maxDepth ∧ t.Reaches l.exclude names ∧
        l.classify? (names.foldl Path.below path) = some f := by
  induction t using FileTree.induction generalizing depth path with
  | file g =>
    rw [sorted, visit, Option.mem_toList]
    constructor
    · exact fun h => ⟨[], hdepth, (reaches_file g).2 rfl, h⟩
    · rintro ⟨names, -, hreaches, h⟩
      obtain rfl := (reaches_file g).1 hreaches
      exact h
  | device =>
    constructor
    · intro h
      cases h
    · rintro ⟨names, -, hreaches, -⟩
      exact absurd hreaches not_reaches_device
  | directory es ih =>
    obtain ⟨hnodup, hentries⟩ := isProper_directory_iff.1 ht
    rw [sorted, visit]
    constructor
    · intro h
      split at h
      · next hlt =>
        rw [visitEntries_eq, List.mem_flatMap] at h
        obtain ⟨e', he', hf⟩ := h
        obtain ⟨e, he, rfl⟩ := List.mem_map.1 ((perm_sortedEntries es).mem_iff.1 he')
        rw [visitEntry, isDirectory_sorted] at hf
        split at hf
        · cases hf
        · next hkept =>
          obtain ⟨names, hlength, hreaches, hclass⟩ := (ih e he (hentries e he).2 hlt).1 hf
          refine ⟨e.1 :: names, ?_, (reaches_directory hnodup).2 ?_, hclass⟩
          · rw [List.length_cons]
            omega
          · exact ⟨e, he, names, rfl, by simpa using hkept, hreaches⟩
      · cases h
    · rintro ⟨names, hlength, hreaches, hclass⟩
      obtain ⟨e, he, rest, rfl, hkept, hrest⟩ := (reaches_directory hnodup).1 hreaches
      rw [List.length_cons] at hlength
      have hlt : depth < l.maxDepth := by omega
      rw [if_pos hlt, visitEntries_eq, List.mem_flatMap]
      refine ⟨(e.1, sorted e.2), (perm_sortedEntries es).mem_iff.2 (List.mem_map_of_mem he), ?_⟩
      rw [visitEntry, isDirectory_sorted, if_neg (by simpa using hkept)]
      exact (ih e he (hentries e he).2 hlt).2 ⟨rest, by omega, hrest, hclass⟩

/-- The files listed for an entry have the parts of its path, followed by others. -/
theorem segments_of_mem_visit {t : FileTree} (ht : t.isProper) {depth : Nat} {directory name : String}
    (hname : Path.isName name) (hdepth : depth ≤ l.maxDepth) {f : SourceFile}
    (hf : f ∈ l.visit depth (Path.below directory name) (sorted t)) :
    ∃ names, Path.segments f.path = Path.segments (Path.below directory name) ++ names := by
  obtain ⟨names, -, ⟨⟨g, hat⟩, -⟩, hclass⟩ := (mem_visit_sorted_iff ht hdepth).1 hf
  refine ⟨names, ?_⟩
  rw [path_of_classify? hclass]
  exact Path.segments_foldl_below (isName_of_at? ht hat) (Path.stem_below hname directory)

theorem pairwise_visit_sorted {t : FileTree} (ht : t.isProper) {depth : Nat} {path : String}
    (hdepth : depth ≤ l.maxDepth) :
    (l.visit depth path (sorted t)).Pairwise fun f g => Path.byteParts f.path < Path.byteParts g.path := by
  induction t using FileTree.induction generalizing depth path with
  | file g =>
    rw [sorted, visit]
    cases l.classify? path <;> simp
  | device => exact .nil
  | directory es ih =>
    obtain ⟨hnodup, hentries⟩ := isProper_directory_iff.1 ht
    rw [sorted, visit]
    split
    · next hlt =>
      obtain ⟨front, hfront⟩ := Path.exists_segments_below path
      have hsource {e' : String × FileTree} (he' : e' ∈ byName (sortedEntries es)) :
          ∃ e ∈ es, (e.1, sorted e.2) = e' := by
        simpa using (perm_sortedEntries es).mem_iff.1 he'
      have hparts {e' : String × FileTree} (he' : e' ∈ byName (sortedEntries es)) {f : SourceFile}
          (hf : f ∈ l.visitEntry depth path e') :
          ∃ rest, Path.segments f.path = front ++ e'.1 :: rest := by
        obtain ⟨e, he, rfl⟩ := hsource he'
        obtain ⟨hname, hproper⟩ := hentries e he
        rw [visitEntry] at hf
        split at hf
        · cases hf
        · obtain ⟨names, hnames⟩ := segments_of_mem_visit hproper hname hlt hf
          rw [hfront e.1 hname, List.append_assoc, List.singleton_append] at hnames
          exact ⟨names, hnames⟩
      rw [visitEntries_eq, List.pairwise_flatMap]
      constructor
      · intro e' he'
        obtain ⟨e, he, rfl⟩ := hsource he'
        rw [visitEntry]
        split
        · exact .nil
        · exact ih e he (hentries e he).2 hlt
      · refine (pairwise_byName hnodup).imp_of_mem fun {e e'} he he' hlt' f hf g hg => ?_
        obtain ⟨rest, hrest⟩ := hparts he hf
        obtain ⟨rest', hrest'⟩ := hparts he' hg
        exact Path.byteParts_lt hrest hrest' hlt'
    · exact .nil

/-- A listing of what can be found gives the files that names lead to within the depth allowed, through no
directory that is left out, and that are taken for something to scan; each with what it is taken for, once,
and in the order of their paths. -/
theorem files_exact (l : Listing) (w : Workspace) {root : String} {t : FileTree}
    (hroot : w.find root = .ok t) (hproper : t.isProper) :
    ∃ listed, l.files w root = .ok listed ∧
      (∀ f, f ∈ listed ↔ ∃ names, names.length ≤ l.maxDepth ∧ t.Reaches l.exclude names ∧
        l.classify? (names.foldl Path.below root) = some f) ∧
      listed.Pairwise fun f g => Path.byteParts f.path < Path.byteParts g.path := by
  refine ⟨l.visit 0 root (sorted t), ?_, fun f => ?_, ?_⟩
  · rw [files, hroot]
    rfl
  · have hmem : f ∈ l.visit 0 root (sorted t) ↔ _ :=
      mem_visit_sorted_iff hproper (Nat.zero_le l.maxDepth)
    simpa only [Nat.zero_add] using hmem
  · exact pairwise_visit_sorted hproper (Nat.zero_le _)

/-- A directory in which the name that is left out is also that of the directory itself, and the other one
that of a file. -/
def vendored : FileTree :=
  let source : FileTree := .file ⟨.text "", false⟩
  .directory [("a", .directory [("deep", .directory [("x.js", source)]), ("x.js", source)]),
    ("a.js", source), ("lib.js", source), ("vendor", .directory [("y.js", source)])]

theorem sorted_vendored : sorted vendored = vendored := by
  have hsorted {es : List (String × FileTree)} (h : es.Pairwise fun a b => decide (a.1 ≤ b.1)) :
      byName es = es := List.mergeSort_of_pairwise h
  simp only [vendored, sorted, sortedEntries, sortedEntry]
  rw [hsorted (by simp), hsorted (by simp), hsorted (by simp), hsorted (by simp)]

theorem files_exact_vendored :
    let l : Listing := ⟨2, ["vendor", "lib.js"], .module, false⟩
    let w : Workspace := ⟨.directory [("vendor", vendored)]⟩
    w.find "vendor" = .ok vendored ∧ vendored.isProper ∧
      ∃ listed, l.files w "vendor" = .ok listed ∧
        listed.map (·.path) = ["vendor/a/x.js", "vendor/a.js", "vendor/lib.js"] ∧
        (∀ f, f ∈ listed ↔ ∃ names, names.length ≤ l.maxDepth ∧ vendored.Reaches l.exclude names ∧
          l.classify? (names.foldl Path.below "vendor") = some f) ∧
        listed.Pairwise fun f g => Path.byteParts f.path < Path.byteParts g.path := by
  intro l w
  have hroot : w.find "vendor" = .ok vendored := rfl
  have hproper : vendored.isProper := by decide
  obtain ⟨listed, hfiles, hmem, horder⟩ := files_exact l w hroot hproper
  have hvisit : l.files w "vendor" = .ok (l.visit 0 "vendor" vendored) :=
    congrArg (fun t => Except.ok (l.visit 0 "vendor" t)) sorted_vendored
  obtain rfl := Except.ok.inj (hfiles.symm.trans hvisit)
  exact ⟨hroot, hproper, _, hfiles, rfl, hmem, horder⟩

end Listing

end PrototypeScan
