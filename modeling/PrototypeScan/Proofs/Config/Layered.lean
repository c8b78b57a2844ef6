import Mathlib
import PrototypeScan.Proofs.Config.Contributions

/-!
How the sources of settings are layered. Each setting has the value that the highest source to set it
gives, whatever the sources say about others, and what a higher source hides is neither converted nor
checked.
-/
namespace PrototypeScan.Config
open Setting

namespace Item

/-- What a source contributes to a setting. -/
def given (s : Item) (source : List (String × Setting)) : List Contribution :=
  source.flatMap (contributions s.table s.key)

/-- The value that a source alone gives a setting. A table without entries sets nothing. -/
def set? (s : Item) (source : List (String × Setting)) : Option Setting :=
  (laid none (s.given source)).filter fun v => !(v.isTable && v.entries.isEmpty)

/-- A source that gives a setting as a whole, if at all. A key with an index gives only an item of a list. -/
def Whole (s : Item) (source : List (String × Setting)) : Prop :=
  ∀ c ∈ s.given source, OutOfLists c.1

/-- Contributions `above` that set a value, either one that is no table or over values that are none: of
the contributions below them nothing is left. -/
def Hides (above below below' : List Contribution) : Prop :=
  (∀ c ∈ above, OutOfLists c.1) ∧ ∃ v, laid none above = some v ∧ (v.isTable = false ∨
    ((laid none below).getD .missing).isTable = false ∧
      ((laid none below').getD .missing).isTable = false)

/-- A setting to which two sources contribute the same, but for what is hidden by the rest. -/
def Kept (s : Item) (source source' : List (String × Setting)) : Prop :=
  ∃ below below' above, s.given source = below ++ above ∧ s.given source' = below' ++ above ∧
    (below = below' ∨ Hides above below below')

theorem given_append (s : Item) (source source' : List (String × Setting)) :
    s.given (source ++ source') = s.given source ++ s.given source' := List.flatMap_append

theorem kept_of_given_eq {s : Item} {source source' : List (String × Setting)}
    (h : s.given source = s.given source') : s.Kept source source' :=
  ⟨s.given source, s.given source', [], (List.append_nil _).symm, (List.append_nil _).symm, .inl h⟩

theorem laid_eq_of_hides {above below below' : List Contribution} (h : Hides above below below') :
    laid none (below ++ above) = laid none (below' ++ above) := by
  obtain ⟨hway, v, hv, hvalue⟩ := h
  rw [laid_append, laid_append]
  obtain htable | ⟨hbelow, hbelow'⟩ := hvalue
  · rw [laid_eq_of_not_table hway hv htable, laid_eq_of_not_table hway hv htable]
  · have hne : above ≠ [] := by
      rintro rfl
      cases hv
    rw [laid_of_not_table hway hne hbelow, laid_of_not_table hway hne hbelow']

theorem Kept.laid_eq {s : Item} {source source' : List (String × Setting)} (h : s.Kept source source') :
    laid none (s.given source) = laid none (s.given source') := by
  obtain ⟨below, below', above, hsource, hsource', rfl | hides⟩ := h
  · rw [hsource, hsource']
  · rw [hsource, hsource', laid_eq_of_hides hides]

/-- A value that a source is laid over is converted only where the source sets none. -/
theorem converted?_laid {s : Item} (hs : OnKey s.read?) {source : List (String × Setting)}
    (hwhole : s.Whole source) {o : Option Setting} {x : s.α}
    (hx : s.converted? (laid o (s.given source)) = some x) :
    s.converted? ((s.set? source).or o) = some x := by
  have hover := over_laid o hwhole
  rw [set?]
  generalize laid o (s.given source) = a at hover hx
  generalize laid none (s.given source) = b at hover ⊢
  cases hover with
  | kept => exact hx
  | replaced v hv => simpa [Option.filter, hv] using hx
  | @joined as bs hwider =>
    -- a table that can be read has one key, so the source gives that key, or nothing
    obtain ⟨key, v, rfl, hread⟩ := hs as x hx
    have hkey (f : String × Setting) (hf : f ∈ bs) : f.1 = key := by
      simpa using hwider.subset (List.mem_map_of_mem hf)
    match bs, hwider, hkey with
    | [], hwider, _ =>
      obtain hnil | rfl := hwider.nil rfl
      · cases hnil
      · exact hx
    | [(k, w)], _, hkey =>
      obtain rfl := hkey (k, w) List.mem_cons_self
      exact hread w
    | f :: g :: _, hwider, hkey =>
      have hne : f.1 ≠ g.1 := (List.pairwise_cons.1 hwider.nodup).1 g.1 List.mem_cons_self
      exact absurd ((hkey f (by simp)).trans (hkey g (by simp)).symm) hne

/-- Of three sources the last one that sets a setting counts. -/
theorem converted?_set? {s : Item} (hs : OnKey s.read?) {low middle high : List (String × Setting)}
    (hwhole : s.Whole (low ++ middle ++ high)) {x : s.α}
    (hx : s.converted? (laid none (s.given (low ++ middle ++ high))) = some x) :
    s.converted? ((s.set? high).or ((s.set? middle).or (s.set? low))) = some x := by
  simp only [Whole, given_append, List.forall_mem_append] at hwhole
  obtain ⟨⟨hlow, hmiddle⟩, hhigh⟩ := hwhole
  rw [given_append, given_append, laid_append, laid_append] at hx
  have hx := converted?_laid hs hhigh hx
  cases hset : s.set? high with
  | some v => rwa [hset] at hx
  | none =>
    rw [hset, Option.none_or] at hx
    have hx := converted?_laid hs hmiddle hx
    cases hset : s.set? middle with
    | some v => rwa [hset] at hx
    | none =>
      rw [hset, Option.none_or] at hx
      simpa only [Option.none_or, Option.or_none] using converted?_laid hs hlow hx

end Item

theorem under?_merged {sources : List (List (String × Setting))}
    (hs : ∀ e ∈ sources.flatten, inSections e = true) : (merged sources).Sectioned ∧
      ∀ s ∈ items, (merged sources).under? s.table s.key = laid none (s.given sources.flatten) := by
  have hempty : (Setting.table []).Sectioned := ⟨rfl, fun _ _ _ h => nomatch h⟩
  have hmerged : merged sources = layer (.table []) sources.flatten := by
    simp only [merged, layer, List.foldl_flatten]
    rfl
  obtain ⟨hsectioned, hunder⟩ := sectioned_layer hs hempty
  rw [hmerged]
  exact ⟨hsectioned, fun s hmem => hunder s.table (table_mem_keys s hmem) s.key⟩

theorem ofSetting?_merged {sources : List (List (String × Setting))}
    (hs : ∀ e ∈ sources.flatten, inSections e = true) {c : Config} : ofSetting? (merged sources) = some c ↔
      ∀ s ∈ items, s.converted? (laid none (s.given sources.flatten)) = some (s.get c) := by
  obtain ⟨hsectioned, hunder⟩ := under?_merged hs
  rw [ofSetting?_eq_some_iff hsectioned]
  exact forall₂_congr fun s hmem => by rw [hunder s hmem]

theorem checked_eq_ok_iff {v : Setting} {c : Config} :
    checked v = .ok c ↔ ofSetting? v = some c ∧ c.problem? = none := by
  rw [checked]
  split
  · next h => simp only [reduceCtorEq, h, false_and]
  · next d h =>
    split
    · next p hp =>
      refine ⟨nofun, fun ⟨hc, hnone⟩ => ?_⟩
      obtain rfl := Option.some.inj (h.symm.trans hc)
      cases hp.symm.trans hnone
    · next hnone =>
      rw [Except.ok.injEq, h, Option.some.injEq]
      exact ⟨fun hd => ⟨hd, hd ▸ hnone⟩, (·.1)⟩

/-- What the sources of a run hold, the sections being tables in all of them. -/
structure Sources (w : Workspace) (environment : List (String × String)) (path : Option String) where
  project : List (String × Setting)
  given : List (String × Setting)
  project_eq : projectSettings? w = some project
  given_eq : givenSettings? w path = some given
  inSections : ∀ e ∈ project ++ given ++ Environment.settings environment, Setting.inSections e = true

namespace Sources
variable {w w' : Workspace} {environment : List (String × String)} {path : Option String}

/-- All sources as one, the highest at its end. -/
def all (sources : Sources w environment path) : List (String × Setting) :=
  sources.project ++ sources.given ++ Environment.settings environment

/-- The value that a setting has before it is converted. -/
def value? (sources : Sources w environment path) (s : Item) : Option Setting :=
  laid none (s.given sources.all)

theorem load_eq (sources : Sources w environment path) : load w environment path =
    match path.filter fun p => !w.contains p with
    | some p => .error (.notFound p)
    | none => checked (merged [sources.project, sources.given, Environment.settings environment]) := by
  cases hpath : path.filter fun p => !w.contains p with
  | none => simp only [load, hpath, sources.project_eq, sources.given_eq]
  | some p => simp only [load, hpath]

theorem ofSetting?_eq_some_iff (sources : Sources w environment path) {c : Config} :
    ofSetting? (merged [sources.project, sources.given, Environment.settings environment]) = some c ↔
      ∀ s ∈ items, s.converted? (sources.value? s) = some (s.get c) := by
  have hall : [sources.project, sources.given, Environment.settings environment].flatten =
      sources.all := by
    simp [all]
  have hmerged := @ofSetting?_merged [sources.project, sources.given, Environment.settings environment]
  rw [hall] at hmerged
  exact hmerged sources.inSections

theorem load_eq_ok_iff (sources : Sources w environment path) {c : Config} :
    load w environment path = .ok c ↔ (∀ p ∈ path, w.contains p = true) ∧
      (∀ s ∈ items, s.converted? (sources.value? s) = some (s.get c)) ∧ c.problem? = none := by
  rw [sources.load_eq, ← sources.ofSetting?_eq_some_iff, ← checked_eq_ok_iff]
  cases hpath : path.filter fun p => !w.contains p with
  | none => simpa [Option.filter_eq_none_iff] using fun _ => hpath
  | some p =>
    obtain ⟨hp, hmissing⟩ := Option.filter_eq_some_iff.1 hpath
    constructor
    · intro h
      cases h
    · intro h
      simp [h.1 p hp] at hmissing

/-- Loading depends on nothing but the values of the settings. -/
theorem load_congr (sources : Sources w environment path) (sources' : Sources w' environment path)
    (hpath : ∀ p ∈ path, w'.contains p = w.contains p)
    (h : ∀ s ∈ items, sources'.value? s = sources.value? s) :
    load w' environment path = load w environment path := by
  have hfilter : (path.filter fun p => !w'.contains p) = path.filter fun p => !w.contains p := by
    cases path with
    | none => rfl
    | some p => simp only [Option.filter, hpath p rfl]
  have hmerged :
      ofSetting? (merged [sources'.project, sources'.given, Environment.settings environment]) =
        ofSetting? (merged [sources.project, sources.given, Environment.settings environment]) := by
    apply Option.ext
    intro c
    rw [sources'.ofSetting?_eq_some_iff, sources.ofSetting?_eq_some_iff]
    exact forall₂_congr fun s hs => by rw [h s hs]
  rw [sources.load_eq, sources'.load_eq, hfilter, checked, checked, hmerged]

end Sources

/-- Loading gives settings exactly if the value of each, in which nothing counts but what the sources
contribute to it, can be converted, and they make sense. Then each setting has the converted value from the
environment if that sets it, else from the file that is asked for, else from the one in the working
directory, else the built-in one. A change of the files that higher sources hide, for each setting that it
touches, changes nothing. The second part leaves out settings that some source gives item by item, with keys that end
in an index (`name[0]`); the first one has them too. The entries of one source are laid over each other in the order of
its list, and so of those that are in conflict, as a table and a key for an entry of it, the later one counts. -/
theorem load_layered {w : Workspace} {environment : List (String × String)} {path : Option String}
    (sources : Sources w environment path) :
    (∀ c, load w environment path = .ok c ↔ (∀ p ∈ path, w.contains p = true) ∧
      (∀ s ∈ items, s.converted? (sources.value? s) = some (s.get c)) ∧ c.problem? = none) ∧
    (∀ c, load w environment path = .ok c → ∀ s ∈ items, s.Whole sources.all →
      s.converted? ((s.set? (Environment.settings environment)).or
        ((s.set? sources.given).or (s.set? sources.project))) = some (s.get c)) ∧
    ∀ w' (sources' : Sources w' environment path), (∀ p ∈ path, w'.contains p = w.contains p) →
      (∀ s ∈ items, s.Kept sources.all sources'.all) →
      load w' environment path = load w environment path := by
  refine ⟨fun c => sources.load_eq_ok_iff, fun c hload s hs hwhole => ?_, fun w' sources' hpath hkept => ?_⟩
  · have hread := (sources.load_eq_ok_iff.1 hload).2.1 s hs
    exact Item.converted?_set? (onKey_read? s hs) hwhole hread
  · exact sources.load_congr sources' hpath fun s hs => (hkept s hs).laid_eq.symm

/-- A file for the working directory, and one to ask for, which gives a text where a list is needed. -/
def layeredFiles (project : String) : Workspace :=
  let given := "[logging]\nformat=\"json\"\n[scan]\nsensitive_properties=\"p\"\n"
  ⟨.directory [("c.toml", .file ⟨.text given, false⟩), ("protoguard.toml", .file ⟨.text project, false⟩)]⟩

def layeredEnvironment : List (String × String) := [("PROTOGUARD__SCAN__SENSITIVE_PROPERTIES", "a,b")]

set_option maxRecDepth 100000 in
theorem settings_layeredEnvironment : Environment.settings layeredEnvironment =
    [("scan.sensitive_properties", .list [.text "a", .text "b"])] := by
  have hkey : Environment.key? "PROTOGUARD__SCAN__SENSITIVE_PROPERTIES" =
      some "scan.sensitive_properties" := by cbv
  have hvalue : Environment.setting "scan.sensitive_properties" "a,b" =
      .list [.text "a", .text "b"] := by cbv
  simp only [Environment.settings, layeredEnvironment, List.filterMap, hkey, hvalue, Option.map_some]

set_option maxRecDepth 100000 in
/-- The sources when the file in the working directory has the given text. -/
def layeredSources {project : String} {settings : List (String × Setting)}
    (h : settingsOf? ⟨.text project, false⟩ = some settings)
    (hsections : ∀ e ∈ settings, Setting.inSections e = true) :
    Sources (layeredFiles project) layeredEnvironment (some "c.toml") where
  project := settings
  given := [("logging", .table [("format", .text "json")]),
    ("scan", .table [("sensitive_properties", .text "p")])]
  project_eq := h
  given_eq := by
    have hfile : settingsFile? (layeredFiles project) "c.toml" =
      some ⟨.text "[logging]\nformat=\"json\"\n[scan]\nsensitive_properties=\"p\"\n", false⟩ := rfl
    rw [givenSettings?, hfile]
    cbv
  inSections := by
    rw [settings_layeredEnvironment, List.append_assoc, List.forall_mem_append]
    exact ⟨hsections, by decide⟩

theorem all_layeredSources {project : String} {settings : List (String × Setting)}
    (h : settingsOf? ⟨.text project, false⟩ = some settings)
    (hsections : ∀ e ∈ settings, Setting.inSections e = true) :
    (layeredSources h hsections).all = settings ++ [("logging", .table [("format", .text "json")]),
      ("scan", .table [("sensitive_properties", .text "p")]),
      ("scan.sensitive_properties", .list [.text "a", .text "b"])] := by
  rw [Sources.all, settings_layeredEnvironment, List.append_assoc]
  rfl

/-- The settings that both files and the environment make together, none of the invalid ones among them. -/
def layeredConfig : Config :=
  { Config.default with
    logging := ⟨"info", "json"⟩
    scan := { Scan.default with properties := ["a", "b"] } }

set_option maxRecDepth 100000 in
theorem load_layered_files :
    let project := "[logging]\nlevel=\"info\"\nformat=\"xml\"\n"
    let project' := "[logging]\nlevel=\"info\"\n"
    load (layeredFiles project) layeredEnvironment (some "c.toml") = .ok layeredConfig ∧
      load (layeredFiles project') layeredEnvironment (some "c.toml") =
        load (layeredFiles project) layeredEnvironment (some "c.toml") := by
  intro project project'
  have hread : settingsOf? ⟨.text project, false⟩ =
      some [("logging", .table [("level", .text "info"), ("format", .text "xml")])] := by cbv
  have hread' : settingsOf? ⟨.text project', false⟩ =
      some [("logging", .table [("level", .text "info")])] := by cbv
  let sources := layeredSources hread (by decide)
  let sources' := layeredSources hread' (by decide)
  have hall : sources.all = _ := all_layeredSources hread (by decide)
  have hall' : sources'.all = _ := all_layeredSources hread' (by decide)
  have hlayered := load_layered sources
  refine ⟨(hlayered.1 layeredConfig).2 ⟨?_, ?_, ?_⟩, hlayered.2.2 _ sources' ?_ ?_⟩
  · intro p hp
    cases hp
    rfl
  · simp only [Sources.value?, hall, forall_mem_items, Logging.items, Scan.items, Parser.items,
      List.forall_mem_cons, List.not_mem_nil, false_implies, implies_true, and_true]
    exact ⟨⟨rfl, rfl⟩, ⟨rfl, rfl, rfl, rfl, rfl, rfl, rfl⟩, rfl, rfl, rfl, rfl, rfl, rfl⟩
  · decide
  · intro p hp
    cases hp
    rfl
  · -- only the format is touched, and the other file sets it
    have hides : Item.Hides [([], .text "json")] [([], .text "xml")] [] := by
      refine ⟨?_, .text "json", rfl, .inl rfl⟩
      simp [OutOfLists]
    simp only [hall, hall', forall_mem_items, Logging.items, Scan.items, Parser.items,
      List.forall_mem_cons, List.not_mem_nil, false_implies, implies_true, and_true]
    have kept {s : Item} := @Item.kept_of_given_eq s
    exact ⟨⟨kept rfl, _, _, _, rfl, rfl, .inr hides⟩,
      ⟨kept rfl, kept rfl, kept rfl, kept rfl, kept rfl, kept rfl, kept rfl⟩,
      kept rfl, kept rfl, kept rfl, kept rfl, kept rfl, kept rfl⟩

end PrototypeScan.Config
