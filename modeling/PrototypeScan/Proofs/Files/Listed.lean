import Mathlib.Data.List.Nodup
import PrototypeScan.Files.Listing

/-!
What is true of the files that a listing gives: each one is what its own path is taken for, and no path is
given twice. The second holds of directories as systems keep them, where an entry has a name of its own and
the name is one part of a path.
-/
namespace PrototypeScan

namespace Path

/-- Whether a text may name an entry of a directory. -/
def isName (name : String) : Bool := !name.isEmpty && !name.toList.contains '/'

/-- What the paths of all entries of a directory begin with. -/
def stem (directory : String) : List Char :=
  if directory = "" then []
  else if directory.toList.getLast? = some '/' then directory.toList
  else directory.toList ++ ['/']

theorem toList_below (directory name : String) :
    (below directory name).toList = stem directory ++ name.toList := by
  unfold below stem
  split
  · rfl
  · split
    · rw [String.toList_append]
    · rw [String.toList_append, String.toList_append]
      rfl

theorem toList_ne_nil_of_isName {name : String} (h : isName name) : name.toList ≠ [] := by
  intro hname
  obtain rfl : name = "" := String.toList_eq_nil_iff.1 hname
  cases h

theorem slash_not_mem_of_isName {name : String} (h : isName name) : '/' ∉ name.toList := by
  have hslash := (Bool.and_eq_true_iff.1 h).2
  simpa using hslash

theorem stem_below {name : String} (h : isName name) (directory : String) :
    stem (below directory name) = (below directory name).toList ++ ['/'] := by
  have hne := toList_ne_nil_of_isName h
  have hpath : (below directory name).toList ≠ [] := by
    rw [toList_below]
    exact List.append_ne_nil_of_right_ne_nil _ hne
  have hlast : (below directory name).toList.getLast? ≠ some '/' := by
    rw [toList_below, List.getLast?_append_of_ne_nil _ hne]
    intro hslash
    exact slash_not_mem_of_isName h (List.mem_of_getLast? hslash)
  have hempty : below directory name ≠ "" := by
    intro hempty
    rw [hempty] at hpath
    exact hpath rfl
  rw [stem, if_neg hempty, if_neg hlast]

/-- Names that are followed by nothing or by a slash can be told from what stands behind them. -/
theorem eq_of_append_eq {name name' : String} {rest rest' : List Char} (h : isName name)
    (h' : isName name') (hrest : rest.head?.all (· = '/')) (hrest' : rest'.head?.all (· = '/'))
    (heq : name.toList ++ rest = name'.toList ++ rest') : name = name' := by
  have hfront {n : String} {r : List Char} (hn : isName n) (hr : r.head?.all (· = '/')) :
      (n.toList ++ r).takeWhile (· ≠ '/') = n.toList := by
    rw [List.takeWhile_append_of_pos]
    · cases r with
      | nil => simp
      | cons c r =>
        obtain rfl : c = '/' := by simpa using hr
        simp
    · intro c hc
      have hne : c ≠ '/' := by
        rintro rfl
        exact slash_not_mem_of_isName hn hc
      simpa using hne
  apply String.toList_inj.1
  rw [← hfront h hrest, heq, hfront h' hrest']

end Path

namespace FileTree

/-- What files and devices have, and directories whenever their entries have it, all trees have. -/
@[elab_as_elim]
theorem induction {motive : FileTree → Prop} (file : ∀ f, motive (.file f)) (device : motive .device)
    (directory : ∀ es, (∀ e ∈ es, motive e.2) → motive (.directory es)) (t : FileTree) : motive t :=
  match t with
  | .file f => file f
  | .device => device
  | .directory es => directory es fun e _ => induction file device directory e.2
termination_by t
decreasing_by
  have hlt := List.sizeOf_lt_of_mem ‹e ∈ es›
  have heq : sizeOf e = 1 + sizeOf e.1 + sizeOf e.2 := rfl
  simp only [FileTree.directory.sizeOf_spec]
  omega

mutual

/-- Whether the entries of every directory have names, each one its own. -/
def isProper : FileTree → Bool
  | .file _ => true
  | .device => true
  | .directory es => decide (es.map (·.1)).Nodup && areProper es

def areProper : List (String × FileTree) → Bool
  | [] => true
  | e :: es => isProperEntry e && areProper es

def isProperEntry : String × FileTree → Bool
  | (name, t) => Path.isName name && isProper t

end

theorem areProper_iff {es : List (String × FileTree)} :
    areProper es ↔ ∀ e ∈ es, Path.isName e.1 ∧ e.2.isProper := by
  induction es with
  | nil => simp [areProper]
  | cons e es ih =>
    rw [areProper, Bool.and_eq_true_iff, ih, List.forall_mem_cons, isProperEntry,
      Bool.and_eq_true_iff]

theorem isProper_directory_iff {es : List (String × FileTree)} :
    (directory es).isProper ↔
      (es.map (·.1)).Nodup ∧ ∀ e ∈ es, Path.isName e.1 ∧ e.2.isProper := by
  rw [isProper, Bool.and_eq_true_iff, areProper_iff, decide_eq_true_iff]

end FileTree

namespace Listing
open FileTree

variable (l : Listing)

theorem sortedEntries_eq (es : List (String × FileTree)) :
    sortedEntries es = es.map fun e => (e.1, sorted e.2) := by
  induction es with
  | nil => rfl
  | cons e es ih => rw [sortedEntries, sortedEntry, ih, List.map_cons]

theorem visitEntries_eq (depth : Nat) (path : String) (es : List (String × FileTree)) :
    l.visitEntries depth path es = es.flatMap (l.visitEntry depth path) := by
  induction es with
  | nil => rfl
  | cons e es ih => rw [visitEntries, ih, List.flatMap_cons]

theorem isProper_sorted {t : FileTree} (h : t.isProper) : (sorted t).isProper := by
  induction t using FileTree.induction with
  | file f => rfl
  | device => rfl
  | directory es ih =>
    rw [isProper_directory_iff] at h
    have hperm : (byName (sortedEntries es)).Perm (es.map fun e => (e.1, sorted e.2)) := by
      rw [← sortedEntries_eq]
      exact List.mergeSort_perm _ _
    rw [sorted, isProper_directory_iff]
    constructor
    · rw [(hperm.map (·.1)).nodup_iff, List.map_map]
      exact h.1
    · intro e he
      obtain ⟨e', he', rfl⟩ := List.mem_map.1 (hperm.mem_iff.1 he)
      exact ⟨(h.2 e' he').1, ih e' he' (h.2 e' he').2⟩

variable {l}

theorem path_of_classify? {path : String} {f : SourceFile} (h : l.classify? path = some f) :
    f.path = path := by
  unfold classify? at h
  split at h
  · split at h
    · obtain rfl := Option.some.inj h
      rfl
    · cases h
  · obtain ⟨kind, -, rfl⟩ := Option.map_eq_some_iff.1 h
    rfl

/-- A listed file is what its path is taken for when it is given alone. -/
theorem classify?_of_mem_visit {depth : Nat} {path : String} {t : FileTree} {f : SourceFile}
    (h : f ∈ l.visit depth path t) : l.classify? f.path = some f := by
  induction t using FileTree.induction generalizing depth path with
  | file g =>
    have hf : l.classify? path = some f := Option.mem_toList.1 h
    rw [path_of_classify? hf, hf]
  | device => cases h
  | directory es ih =>
    rw [visit] at h
    split at h
    · rw [visitEntries_eq, List.mem_flatMap] at h
      obtain ⟨e, he, hf⟩ := h
      rw [visitEntry] at hf
      split at hf
      · cases hf
      · exact ih e he hf
    · cases h

/-- The files listed for an entry have paths that begin with that of the entry. -/
theorem toList_path_of_mem_visit {depth : Nat} {directory name : String} {t : FileTree} {f : SourceFile}
    (hname : Path.isName name) (ht : t.isProper) (h : f ∈ l.visit depth (Path.below directory name) t) :
    ∃ rest : List Char, f.path.toList = Path.stem directory ++ (name.toList ++ rest) ∧
      rest.head?.all (· = '/') := by
  induction t using FileTree.induction generalizing depth directory name with
  | file g =>
    refine ⟨[], ?_, rfl⟩
    rw [path_of_classify? (Option.mem_toList.1 h), Path.toList_below, List.append_nil]
  | device => cases h
  | directory es ih =>
    rw [isProper_directory_iff] at ht
    rw [visit] at h
    split at h
    · rw [visitEntries_eq, List.mem_flatMap] at h
      obtain ⟨e, he, hf⟩ := h
      rw [visitEntry] at hf
      split at hf
      · cases hf
      · obtain ⟨rest, hpath, -⟩ := ih e he (ht.2 e he).1 (ht.2 e he).2 hf
        refine ⟨'/' :: (e.1.toList ++ rest), ?_, rfl⟩
        rw [hpath, Path.stem_below hname, Path.toList_below]
        simp
    · cases h

theorem disjoint_visitEntry {depth : Nat} {directory : String} {e e' : String × FileTree}
    (he : Path.isName e.1 ∧ e.2.isProper) (he' : Path.isName e'.1 ∧ e'.2.isProper) (hne : e.1 ≠ e'.1) :
    ((l.visitEntry depth directory e).map (·.path)).Disjoint
      ((l.visitEntry depth directory e').map (·.path)) := by
  intro path hpath hpath'
  obtain ⟨f, hf, rfl⟩ := List.mem_map.1 hpath
  obtain ⟨g, hg, hsame⟩ := List.mem_map.1 hpath'
  rw [visitEntry] at hf hg
  split at hf
  · cases hf
  · split at hg
    · cases hg
    · obtain ⟨rest, hfpath, hrest⟩ := toList_path_of_mem_visit he.1 he.2 hf
      obtain ⟨rest', hgpath, hrest'⟩ := toList_path_of_mem_visit he'.1 he'.2 hg
      have heq : e.1.toList ++ rest = e'.1.toList ++ rest' := by
        apply List.append_cancel_left
        rw [← hfpath, ← hgpath, hsame]
      exact hne (Path.eq_of_append_eq he.1 he'.1 hrest hrest' heq)

theorem nodup_paths_visit {depth : Nat} {path : String} {t : FileTree} (ht : t.isProper) :
    ((l.visit depth path t).map (·.path)).Nodup := by
  induction t using FileTree.induction generalizing depth path with
  | file f =>
    rw [visit]
    cases l.classify? path <;> simp
  | device => exact List.nodup_nil
  | directory es ih =>
    rw [isProper_directory_iff] at ht
    rw [visit]
    split
    · rw [visitEntries_eq, List.map_flatMap, List.nodup_flatMap]
      constructor
      · intro e he
        rw [visitEntry]
        split
        · exact List.nodup_nil
        · exact ih e he (ht.2 e he).2
      · have hnames : es.Pairwise fun e e' => e.1 ≠ e'.1 := List.pairwise_map.1 ht.1
        exact hnames.imp_of_mem fun he he' hne => disjoint_visitEntry (ht.2 _ he) (ht.2 _ he') hne
    · exact List.nodup_nil

end Listing

end PrototypeScan
