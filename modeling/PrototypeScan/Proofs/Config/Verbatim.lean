import PrototypeScan.Proofs.Config.Layered
import PrototypeScan.Proofs.Config.Scalar

/-!
Settings from single variables. What a variable holds is all that counts for its setting, and for no other one,
so that it can be changed on its own: a list or a text arrives as it is written, unless it reads as a truth value
or a number.
-/
namespace PrototypeScan

namespace Setting

/-- Whether a way leads to something else than the value under a key of the table with a name, and leaves both
where they are. -/
def elsewhere (name key : String) : List Step → Bool
  | .key n :: .key k :: _ => !(n = name && k = key)
  | .key n :: _ => n ≠ name
  | _ => false

/-- That two values differ at most in what is under a key of the table with a name, `v` in one of them and
`w` in the other. -/
structure Alike (name key : String) (a b v w : Setting) : Prop where
  left_isTable : a.isTable = true
  right_isTable : b.isTable = true
  others : ∀ n ≠ name, Fields.get? n b.entries = Fields.get? n a.entries
  tables : ∃ es fs, Fields.get? name a.entries = some (table es) ∧ Fields.get? name b.entries = some (table fs) ∧
    Fields.get? key es = some v ∧ Fields.get? key fs = some w ∧
    ∀ k ≠ key, Fields.get? k fs = Fields.get? k es

variable {name key : String} {a b v w : Setting}

theorem Alike.left (h : Alike name key a b v w) : Alike name key a a v v := by
  obtain ⟨es, fs, hes, -, hv, -, -⟩ := h.tables
  exact ⟨h.left_isTable, h.left_isTable, fun _ _ => rfl, es, es, hes, hes, hv, hv, fun _ _ => rfl⟩

theorem alike_assign_value (hv : v.isTable = false) (hw : w.isTable = false) (old : Setting) :
    Alike name key (assign v [.key name, .key key] old) (assign w [.key name, .key key] old) v w := by
  refine ⟨rfl, rfl, fun n hn => ?_, ?_⟩
  · rw [entries_assign_key, entries_assign_key, Fields.get?_upsert, Fields.get?_upsert, if_neg (Ne.symm hn),
      if_neg (Ne.symm hn)]
  · let es := ((Fields.get? name old.entries).getD missing).entries
    have hentries (u : Setting) : Fields.get? name (assign u [.key name, .key key] old).entries =
        some (table (Fields.upsert key (fun o => assign u [] (o.getD missing)) es)) := by
      rw [entries_assign_key, Fields.get?_upsert, if_pos rfl]
      rfl
    have hvalue {u : Setting} (hu : u.isTable = false) :
        Fields.get? key (Fields.upsert key (fun o => assign u [] (o.getD missing)) es) = some u := by
      rw [Fields.get?_upsert, if_pos rfl, assign, overlay_eq_self hu]
    refine ⟨_, _, hentries v, hentries w, hvalue hv, hvalue hw, fun k hk => ?_⟩
    rw [Fields.get?_upsert, Fields.get?_upsert, if_neg (Ne.symm hk), if_neg (Ne.symm hk)]

theorem Alike.assign (h : Alike name key a b v w) (u : Setting) {steps : List Step}
    (hsteps : elsewhere name key steps = true) : Alike name key (assign u steps a) (assign u steps b) v w := by
  obtain ⟨es, fs, hes, hfs, hv, hw, hkeys⟩ := h.tables
  obtain _ | ⟨n | i, rest⟩ := steps
  · cases hsteps
  · have hothers (m : String) (hm : m ≠ name) : Fields.get? m (Setting.assign u (.key n :: rest) b).entries =
        Fields.get? m (Setting.assign u (.key n :: rest) a).entries := by
      rw [entries_assign_key, entries_assign_key, Fields.get?_upsert, Fields.get?_upsert, h.others m hm]
      split
      · next hn => rw [hn, h.others m hm]
      · rfl
    by_cases hn : n = name
    · subst hn
      -- another entry of the same table
      obtain _ | ⟨k | i, rest⟩ := rest
      · simp [elsewhere] at hsteps
      · have hk : k ≠ key := by simpa [elsewhere] using hsteps
        have hentries {c : Setting} {gs : List (String × Setting)}
            (hgs : Fields.get? n c.entries = some (table gs)) :
            Fields.get? n (Setting.assign u (.key n :: .key k :: rest) c).entries =
              some (table (Fields.upsert k (fun o => Setting.assign u rest (o.getD missing)) gs)) := by
          rw [entries_assign_key, Fields.get?_upsert, if_pos rfl, hgs]
          rfl
        refine ⟨rfl, rfl, hothers, _, _, hentries hes, hentries hfs, ?_, ?_, fun m hm => ?_⟩
        · rw [Fields.get?_upsert, if_neg hk, hv]
        · rw [Fields.get?_upsert, if_neg hk, hw]
        · rw [Fields.get?_upsert, Fields.get?_upsert, hkeys m hm]
          split
          · next hkm => rw [hkm, hkeys m hm]
          · rfl
      · simp [elsewhere] at hsteps
    · refine ⟨rfl, rfl, hothers, es, fs, ?_, ?_, hv, hw, hkeys⟩
      · rw [entries_assign_key, Fields.get?_upsert, if_neg hn, hes]
      · rw [entries_assign_key, Fields.get?_upsert, if_neg hn, hfs]
  · cases hsteps

theorem Alike.layer (h : Alike name key a b v w) {source : List (String × Setting)}
    (hsource : ∀ e ∈ source, elsewhere name key (way e.1) = true) :
    Alike name key (layer a source) (layer b source) v w := by
  induction source generalizing a b with
  | nil => exact h
  | cons e source ih =>
    obtain ⟨he, hsource⟩ := List.forall_mem_cons.1 hsource
    exact ih (h.assign e.2 he) hsource

end Setting

namespace Config
open Setting

variable {key : String} {a b v w : Setting} {c c' : Config}

/-! What the conversion makes of two values that differ in one setting. -/

theorem part?_of_get? {α : Type} {read? : Setting → Option α} {standard : α} {name : String} {v : Setting}
    {es : List (String × Setting)} (h : Fields.get? name v.entries = some (table es)) :
    part? v.entries name read? standard = read? (table (v.inside name)) := by
  rw [part?, inside, h]
  rfl

theorem part?_congr {α : Type} {read? : Setting → Option α} {standard : α} {name : String}
    (h : Fields.get? name b.entries = Fields.get? name a.entries) :
    part? b.entries name read? standard = part? a.entries name read? standard := by
  rw [part?, part?, h]

theorem ofSetting?_scan_iff (h : Alike "scan" key a b v w) (ha : ofSetting? a = some c) (c' : Config) :
    ofSetting? b = some c' ↔ (c'.logging = c.logging ∧ c'.parser = c.parser) ∧
      ∀ s ∈ Scan.items, s.converted? (b.under? s.table s.key) = some (s.get c') := by
  obtain ⟨_, _, _, hfs, -⟩ := h.tables
  obtain ⟨hlogging, -, hparser⟩ := (ofSetting?_eq_some_iff_parts h.left_isTable).1 ha
  rw [ofSetting?_eq_some_iff_parts h.right_isTable, ← Scan.ofSetting?_inside, part?_of_get? hfs,
    part?_congr (h.others "logging" (by decide)), part?_congr (h.others "parser" (by decide)), hlogging, hparser,
    Option.some.injEq, Option.some.injEq, eq_comm (a := c.logging), eq_comm (a := c.parser)]
  exact ⟨fun ⟨hl, hs, hp⟩ => ⟨⟨hl, hp⟩, hs⟩, fun ⟨⟨hl, hp⟩, hs⟩ => ⟨hl, hs, hp⟩⟩

theorem ofSetting?_parser_iff (h : Alike "parser" key a b v w) (ha : ofSetting? a = some c) (c' : Config) :
    ofSetting? b = some c' ↔ (c'.logging = c.logging ∧ c'.scan = c.scan) ∧
      ∀ s ∈ Parser.items, s.converted? (b.under? s.table s.key) = some (s.get c') := by
  obtain ⟨_, _, _, hfs, -⟩ := h.tables
  obtain ⟨hlogging, hscan, -⟩ := (ofSetting?_eq_some_iff_parts h.left_isTable).1 ha
  rw [ofSetting?_eq_some_iff_parts h.right_isTable, ← Parser.ofSetting?_inside, part?_of_get? hfs,
    part?_congr (h.others "logging" (by decide)), part?_congr (h.others "scan" (by decide)), hlogging, hscan,
    Option.some.injEq, Option.some.injEq, eq_comm (a := c.logging), eq_comm (a := c.scan), and_assoc]

theorem under?_of_alike {name : String} (h : Alike name key a b v w) (k : String) :
    b.under? name k = if k = key then some w else a.under? name k := by
  obtain ⟨es, fs, hes, hfs, -, hw, hkeys⟩ := h.tables
  rw [under?, under?, inside, inside, hes, hfs]
  by_cases hk : k = key
  · rw [if_pos hk, hk]
    exact hw
  · rw [if_neg hk]
    exact hkeys k hk

/-- Settings of a section after a change of one of them: that one is what its new value is read as, and the
others are as they were. -/
theorem converted?_of_alike {name : String} {items : List Item} (htable : ∀ s ∈ items, s.table = name)
    (h : Alike name key a b v w)
    (ha : ∀ s ∈ items, s.converted? (a.under? s.table s.key) = some (s.get c)) :
    (∀ s ∈ items, s.converted? (b.under? s.table s.key) = some (s.get c')) ↔
      ∀ s ∈ items, if s.key = key then s.read? w = some (s.get c') else s.get c' = s.get c := by
  refine forall₂_congr fun s hs => ?_
  have hself := ha s hs
  rw [htable s hs] at hself ⊢
  rw [under?_of_alike h]
  split
  · rfl
  · rw [hself, Option.some.injEq, eq_comm]

/-- The conversion after a change in a section, if `read?` and `set` are how the changed setting is read and
set. -/
theorem ofSetting?_eq_map {α : Type} {read? : Setting → Option α} {set : α → Config → Config} {name : String}
    {items : List Item} {Rest : Config → Prop} (htable : ∀ s ∈ items, s.table = name) (h : Alike name key a b v w)
    (ha : ∀ s ∈ items, s.converted? (a.under? s.table s.key) = some (s.get c))
    (hb : ∀ c', ofSetting? b = some c' ↔
      Rest c' ∧ ∀ s ∈ items, s.converted? (b.under? s.table s.key) = some (s.get c'))
    (hsome : ∀ y, read? w = some y → Rest (set y c) ∧
      ∀ s ∈ items, if s.key = key then s.read? w = some (s.get (set y c)) else s.get (set y c) = s.get c)
    (hnone : read? w = none → ∃ s ∈ items, s.key = key ∧ s.read? w = none) :
    ofSetting? b = (read? w).map (set · c) := by
  cases hread : read? w with
  | some y =>
    obtain ⟨hrest, hitems⟩ := hsome y hread
    exact (hb _).2 ⟨hrest, (converted?_of_alike htable h ha).2 hitems⟩
  | none =>
    obtain ⟨s, hs, hkey, hvalue⟩ := hnone hread
    refine Option.eq_none_iff_forall_ne_some.2 fun c' hc' => ?_
    have hitem := (converted?_of_alike htable h ha).1 ((hb c').1 hc').2 s hs
    rw [if_pos hkey, hvalue] at hitem
    cases hitem

theorem table_scanItems : ∀ s ∈ Scan.items, s.table = "scan" := by
  simp [Scan.items]

theorem table_parserItems : ∀ s ∈ Parser.items, s.table = "parser" := by
  simp [Parser.items]

section

variable {α : Type} {read? : Setting → Option α} {set : α → Config → Config}

theorem ofSetting?_scan_eq_map (h : Alike "scan" key a b v w) (ha : ofSetting? a = some c)
    (hsome : ∀ y, read? w = some y → ((set y c).logging = c.logging ∧ (set y c).parser = c.parser) ∧
      ∀ s ∈ Scan.items, if s.key = key then s.read? w = some (s.get (set y c)) else s.get (set y c) = s.get c)
    (hnone : read? w = none → ∃ s ∈ Scan.items, s.key = key ∧ s.read? w = none) :
    ofSetting? b = (read? w).map (set · c) :=
  ofSetting?_eq_map table_scanItems h ((ofSetting?_scan_iff h.left ha _).1 ha).2 (ofSetting?_scan_iff h ha) hsome hnone

theorem ofSetting?_parser_eq_map (h : Alike "parser" key a b v w) (ha : ofSetting? a = some c)
    (hsome : ∀ y, read? w = some y → ((set y c).logging = c.logging ∧ (set y c).scan = c.scan) ∧
      ∀ s ∈ Parser.items, if s.key = key then s.read? w = some (s.get (set y c)) else s.get (set y c) = s.get c)
    (hnone : read? w = none → ∃ s ∈ Parser.items, s.key = key ∧ s.read? w = none) :
    ofSetting? b = (read? w).map (set · c) :=
  ofSetting?_eq_map table_parserItems h ((ofSetting?_parser_iff h.left ha _).1 ha).2 (ofSetting?_parser_iff h ha)
    hsome hnone

end

/-! Settings that make sense. -/

theorem Scan.problem?_eq_none_iff {s : Scan} : s.problem? = none ↔
    s.maxDepth ≠ 0 ∧ s.maxConcurrent ≠ 0 ∧ s.maxFileSize ≠ some 0 ∧
      (s.limits.nodes ≠ some 0 ∧ s.limits.depth ≠ some 0) ∧
      s.properties ≠ [] ∧ ∀ p ∈ s.properties, Text.isBlank p = false := by
  have hblank : (s.properties.find? Text.isBlank).map Problem.blankProperty = none ↔
      ∀ p ∈ s.properties, Text.isBlank p = false := by
    rw [Option.map_eq_none_iff, List.find?_eq_none]
    simp only [Bool.not_eq_true]
  have hempty : s.properties ≠ [] ↔ ¬ s.properties.isEmpty = true := not_congr List.isEmpty_iff.symm
  rw [← hblank, hempty, Scan.problem?]
  split_ifs with hdepth hconcurrent hsize hlimits hproperties
  · simp [hdepth]
  · simp [hconcurrent]
  · simp [hsize]
  · rw [Bool.or_eq_true, decide_eq_true_iff, decide_eq_true_iff] at hlimits
    simp [or_iff_not_and_not.1 hlimits]
  · simp [hproperties]
  · rw [Bool.or_eq_true, decide_eq_true_iff, decide_eq_true_iff, not_or] at hlimits
    simp [hdepth, hconcurrent, hsize, hlimits, hproperties]

theorem Parser.problem?_eq_none_iff {p : Parser} : p.problem? = none ↔
    Text.isBlank p.executable = false ∧ p.timeout ≠ 0 ∧ Text.isBlank p.ecmaVersion = false := by
  unfold Parser.problem?
  split_ifs <;> simp_all

theorem problem?_eq_none_iff : c.problem? = none ↔
    c.logging.problem? = none ∧ c.scan.problem? = none ∧ c.parser.problem? = none := by
  rw [problem?, Option.or_eq_none_iff, Option.or_eq_none_iff]

/-! Variables. -/

/-- A setting that a variable of the environment can hold: the name of the variable, where the setting stands,
how it is set to a value, and which values make sense. -/
structure Variable (α : Type) where
  name : String
  table : String
  key : String
  set : α → Config → Config
  Accepts : α → Prop

namespace Variable

/-- The key that the name of the variable stands for. -/
def path {α : Type} (x : Variable α) : String := x.table ++ "." ++ x.key

def excludePatterns : Variable (List String) where
  name := "PROTOGUARD__SCAN__EXCLUDE_PATTERNS"
  table := "scan"
  key := "exclude_patterns"
  set items c := { c with scan := { c.scan with exclude := items } }
  Accepts _ := True

def sensitiveProperties : Variable (List String) where
  name := "PROTOGUARD__SCAN__SENSITIVE_PROPERTIES"
  table := "scan"
  key := "sensitive_properties"
  set items c := { c with scan := { c.scan with properties := items } }
  Accepts items := items ≠ [] ∧ ∀ s ∈ items, Text.isBlank s = false

def nodeExecutable : Variable String where
  name := "PROTOGUARD__PARSER__NODE_EXECUTABLE"
  table := "parser"
  key := "node_executable"
  set text c := { c with parser := { c.parser with executable := text } }
  Accepts text := Text.isBlank text = false

def nodeModulesDir : Variable String where
  name := "PROTOGUARD__PARSER__NODE_MODULES_DIR"
  table := "parser"
  key := "node_modules_dir"
  set text c := { c with parser := { c.parser with modulesDirectory := some text } }
  Accepts _ := True

def ecmaVersion : Variable String where
  name := "PROTOGUARD__PARSER__ECMA_VERSION"
  table := "parser"
  key := "ecma_version"
  set text c := { c with parser := { c.parser with ecmaVersion := text } }
  Accepts text := Text.isBlank text = false

/-- That the settings depend on a variable as they should: its name leads to its setting, a change there is
a change of that setting alone, to what the new value is read as, and a value that makes sense keeps the
settings valid. -/
structure Governs {α : Type} (x : Variable α) (read? : Setting → Option α) : Prop where
  key?_eq : Environment.key? x.name = some x.path
  way_eq : way x.path = [.key x.table, .key x.key]
  ofSetting?_eq : ∀ {a b v w c}, w ≠ .missing → Alike x.table x.key a b v w → ofSetting? a = some c →
    ofSetting? b = (read? w).map (x.set · c)
  problem?_eq : ∀ {c y}, x.Accepts y → c.problem? = none → (x.set y c).problem? = none
  set_injective : ∀ {c y z}, x.set y c = x.set z c → y = z

theorem governs_excludePatterns : excludePatterns.Governs toTexts? where
  key?_eq := by decide
  way_eq := by decide
  ofSetting?_eq := by
    intro a b v w c _ h ha
    refine ofSetting?_scan_eq_map h ha (fun y hy => ⟨⟨rfl, rfl⟩, ?_⟩) fun hnone => ?_
    · simp [Scan.items, excludePatterns, hy]
    · exact ⟨⟨"scan", "exclude_patterns", toTexts?, (·.scan.exclude)⟩, by simp [Scan.items], rfl, hnone⟩
  problem?_eq _ hc := hc
  set_injective h := congrArg (·.scan.exclude) h

theorem governs_sensitiveProperties : sensitiveProperties.Governs toTexts? where
  key?_eq := by decide
  way_eq := by decide
  ofSetting?_eq := by
    intro a b v w c _ h ha
    refine ofSetting?_scan_eq_map h ha (fun y hy => ⟨⟨rfl, rfl⟩, ?_⟩) fun hnone => ?_
    · simp [Scan.items, sensitiveProperties, hy]
    · exact ⟨⟨"scan", "sensitive_properties", toTexts?, (·.scan.properties)⟩, by simp [Scan.items], rfl, hnone⟩
  problem?_eq := by
    intro c y hy hc
    obtain ⟨hlogging, hscan, hparser⟩ := problem?_eq_none_iff.1 hc
    obtain ⟨hdepth, hconcurrent, hsize, hlimits, -, -⟩ := Scan.problem?_eq_none_iff.1 hscan
    have hscan : (sensitiveProperties.set y c).scan.problem? = none :=
      Scan.problem?_eq_none_iff.2 ⟨hdepth, hconcurrent, hsize, hlimits, hy.1, hy.2⟩
    exact problem?_eq_none_iff.2 ⟨hlogging, hscan, hparser⟩
  set_injective h := congrArg (·.scan.properties) h

theorem governs_nodeExecutable : nodeExecutable.Governs toText? where
  key?_eq := by decide
  way_eq := by decide
  ofSetting?_eq := by
    intro a b v w c _ h ha
    refine ofSetting?_parser_eq_map h ha (fun y hy => ⟨⟨rfl, rfl⟩, ?_⟩) fun hnone => ?_
    · simp [Parser.items, nodeExecutable, hy]
    · exact ⟨⟨"parser", "node_executable", toText?, (·.parser.executable)⟩, by simp [Parser.items], rfl, hnone⟩
  problem?_eq := by
    intro c y hy hc
    obtain ⟨hlogging, hscan, hparser⟩ := problem?_eq_none_iff.1 hc
    obtain ⟨-, htimeout, hversion⟩ := Parser.problem?_eq_none_iff.1 hparser
    exact problem?_eq_none_iff.2 ⟨hlogging, hscan, Parser.problem?_eq_none_iff.2 ⟨hy, htimeout, hversion⟩⟩
  set_injective h := congrArg (·.parser.executable) h

theorem optional?_toText? {w : Setting} (hw : w ≠ .missing) : optional? toText? w = (toText? w).map some := by
  cases w with
  | missing => exact absurd rfl hw
  | _ => rfl

theorem governs_nodeModulesDir : nodeModulesDir.Governs toText? where
  key?_eq := by decide
  way_eq := by decide
  ofSetting?_eq := by
    intro a b v w c hw h ha
    have hread := optional?_toText? hw
    refine ofSetting?_parser_eq_map h ha (fun y hy => ⟨⟨rfl, rfl⟩, ?_⟩) fun hnone => ?_
    · simp [Parser.items, nodeModulesDir, hread, hy]
    · rw [hnone] at hread
      exact ⟨⟨"parser", "node_modules_dir", optional? toText?, (·.parser.modulesDirectory)⟩, by simp [Parser.items],
        rfl, hread⟩
  problem?_eq _ hc := hc
  set_injective h := Option.some.inj (congrArg (·.parser.modulesDirectory) h)

theorem governs_ecmaVersion : ecmaVersion.Governs toText? where
  key?_eq := by decide
  way_eq := by decide
  ofSetting?_eq := by
    intro a b v w c _ h ha
    refine ofSetting?_parser_eq_map h ha (fun y hy => ⟨⟨rfl, rfl⟩, ?_⟩) fun hnone => ?_
    · simp [Parser.items, ecmaVersion, hy]
    · exact ⟨⟨"parser", "ecma_version", toText?, (·.parser.ecmaVersion)⟩, by simp [Parser.items], rfl, hnone⟩
  problem?_eq := by
    intro c y hy hc
    obtain ⟨hlogging, hscan, hparser⟩ := problem?_eq_none_iff.1 hc
    obtain ⟨hexecutable, htimeout, -⟩ := Parser.problem?_eq_none_iff.1 hparser
    exact problem?_eq_none_iff.2 ⟨hlogging, hscan, Parser.problem?_eq_none_iff.2 ⟨hexecutable, htimeout, hy⟩⟩
  set_injective h := congrArg (·.parser.ecmaVersion) h

end Variable

/-! Loading. -/

theorem isTable_setting (key value : String) : (Environment.setting key value).isTable = false := by
  rw [Environment.setting_eq]
  cases hvalue : Environment.scalar? value with
  | none =>
    rw [Option.getD_none]
    split <;> rfl
  | some v => exact (Environment.isScalar_of_scalar? hvalue).not_table

theorem setting_ne_missing (key value : String) : Environment.setting key value ≠ .missing := by
  rw [Environment.setting_eq]
  cases hvalue : Environment.scalar? value with
  | none =>
    rw [Option.getD_none]
    split <;> nofun
  | some v =>
    obtain ⟨s, hs, -⟩ := (Environment.isScalar_of_scalar? hvalue).text
    rintro rfl
    cases hs

theorem settings_append (before after : List (String × String)) {name text path : String}
    (hname : Environment.key? name = some path) : Environment.settings (before ++ (name, text) :: after) =
      Environment.settings before ++ (path, Environment.setting path text) :: Environment.settings after := by
  simp only [Environment.settings, List.filterMap_append, List.filterMap_cons, hname, Option.map_some]

/-- Once settings have been loaded, only the environment counts for whether they can be, and for what they are. -/
theorem exists_load_eq_checked {w : Workspace} {environment : List (String × String)} {path : Option String}
    {c : Config} (h : load w environment path = .ok c) :
    ∃ low, ∀ environment', load w environment' path = checked (layer low (Environment.settings environment')) := by
  cases hpath : path.filter fun p => !w.contains p with
  | some p =>
    rw [load, hpath] at h
    cases h
  | none =>
    cases hproject : projectSettings? w with
    | none =>
      simp only [load, hpath, hproject] at h
      cases h
    | some project =>
      cases hgiven : givenSettings? w path with
      | none =>
        simp only [load, hpath, hproject, hgiven] at h
        cases h
      | some given =>
        refine ⟨layer (layer (.table []) project) given, fun environment' => ?_⟩
        simp only [load, hpath, hproject, hgiven]
        rfl

theorem layer_append (low : Setting) (source source' : List (String × Setting)) :
    layer low (source ++ source') = layer (layer low source) source' := List.foldl_append

section

variable {w : Workspace} {before after : List (String × String)} {path : Option String} {value : String}
  {α : Type} {x : Variable α} {read? : Setting → Option α} (hx : x.Governs read?)
  (hload : load w (before ++ (x.name, value) :: after) path = .ok c)
  (hafter : ∀ e ∈ Environment.settings after, elsewhere x.table x.key (way e.1) = true)
include hx hload hafter

/-- Two runs that differ in one variable have values that differ in one setting. -/
theorem exists_alike (text : String) : ∃ a b,
    Alike x.table x.key a b (Environment.setting x.path value) (Environment.setting x.path text) ∧
      checked a = .ok c ∧ load w (before ++ (x.name, text) :: after) path = checked b := by
  obtain ⟨low, hlow⟩ := exists_load_eq_checked hload
  have hvalue (text : String) : layer low (Environment.settings (before ++ (x.name, text) :: after)) =
      layer (assign (Environment.setting x.path text) [.key x.table, .key x.key]
        (layer low (Environment.settings before))) (Environment.settings after) := by
    rw [settings_append before after hx.key?_eq, layer_append]
    rw [layer, List.foldl_cons, ← layer, hx.way_eq]
  have halike := (alike_assign_value (isTable_setting x.path value) (isTable_setting x.path text)
    (layer low (Environment.settings before))).layer hafter
  rw [hlow, hvalue] at hload
  exact ⟨_, _, halike, hload, by rw [hlow, hvalue]⟩

/-- A value of the variable that reads as one that makes sense sets just that. -/
theorem load_eq_set {text : String} {y : α} (hread : read? (Environment.setting x.path text) = some y)
    (hy : x.Accepts y) : load w (before ++ (x.name, text) :: after) path = .ok (x.set y c) := by
  obtain ⟨a, b, halike, ha, hb⟩ := exists_alike hx hload hafter text
  obtain ⟨hc, hproblem⟩ := checked_eq_ok_iff.1 ha
  have hset := hx.ofSetting?_eq (setting_ne_missing x.path text) halike hc
  rw [hread, Option.map_some] at hset
  rw [hb, checked_eq_ok_iff]
  exact ⟨hset, hx.problem?_eq hy hproblem⟩

/-- A value of the variable that cannot be read makes all settings invalid. -/
theorem load_eq_invalid {text : String} (hread : read? (Environment.setting x.path text) = none) :
    load w (before ++ (x.name, text) :: after) path = .error .invalid := by
  obtain ⟨a, b, halike, ha, hb⟩ := exists_alike hx hload hafter text
  obtain ⟨hc, -⟩ := checked_eq_ok_iff.1 ha
  have hset := hx.ofSetting?_eq (setting_ne_missing x.path text) halike hc
  rw [hread, Option.map_none] at hset
  rw [hb, checked, hset]

end

/-- The variables that hold lists. -/
def listVariables : List (Variable (List String)) := [.excludePatterns, .sensitiveProperties]

/-- The variables that hold texts. -/
def textVariables : List (Variable String) := [.nodeExecutable, .nodeModulesDir, .ecmaVersion]

theorem governs_listVariables : ∀ x ∈ listVariables,
    x.Governs toTexts? ∧ Environment.listKeys.contains x.path = true := by
  simp only [listVariables, List.forall_mem_cons, List.not_mem_nil, false_implies, implies_true, and_true]
  exact ⟨⟨Variable.governs_excludePatterns, by decide⟩, Variable.governs_sensitiveProperties, by decide⟩

theorem governs_textVariables : ∀ x ∈ textVariables,
    x.Governs toText? ∧ Environment.listKeys.contains x.path = false ∧
      ∀ text, x.Accepts text → x.Accepts (Environment.spelled text) := by
  simp only [textVariables, List.forall_mem_cons, List.not_mem_nil, false_implies, implies_true, and_true]
  exact ⟨⟨Variable.governs_nodeExecutable, by decide, fun _ h => Environment.isBlank_spelled h⟩,
    ⟨Variable.governs_nodeModulesDir, by decide, fun _ h => h⟩,
    Variable.governs_ecmaVersion, by decide, fun _ h => Environment.isBlank_spelled h⟩

open Environment (LoneScalar joined spelled)

/-- What a variable sets where all other settings are valid and no later variable leads to the same setting. A
list of items without commas arrives as it is, except for a single item that reads as a scalar, which makes all
settings invalid. A text arrives as the scalar it reads as is spelled, and else as it is. -/
theorem load_variable (w : Workspace) (before after : List (String × String)) (path : Option String)
    (value : String) (c : Config) :
    (∀ x ∈ listVariables, load w (before ++ (x.name, value) :: after) path = .ok c →
      (∀ e ∈ Environment.settings after, elsewhere x.table x.key (way e.1) = true) →
      ∀ items, items ≠ [] → (∀ s ∈ items, ',' ∉ s.toList) → x.Accepts items →
        (¬ LoneScalar items →
          load w (before ++ (x.name, joined items) :: after) path = .ok (x.set items c)) ∧
        (LoneScalar items → load w (before ++ (x.name, joined items) :: after) path = .error .invalid)) ∧
    ∀ x ∈ textVariables, load w (before ++ (x.name, value) :: after) path = .ok c →
      (∀ e ∈ Environment.settings after, elsewhere x.table x.key (way e.1) = true) →
      ∀ text, x.Accepts text →
        load w (before ++ (x.name, text) :: after) path = .ok (x.set (spelled text) c) ∧
        (load w (before ++ (x.name, text) :: after) path = .ok (x.set text c) ↔ spelled text = text) := by
  constructor
  · intro x hx hload hafter items hne hcommas hitems
    obtain ⟨hgoverns, hkey⟩ := governs_listVariables x hx
    rcases Environment.setting_joined hkey hne hcommas with ⟨hmany, hsetting⟩ | ⟨hlone, v, hsetting, hscalar⟩
    · refine ⟨fun _ => ?_, fun hlone => absurd hlone hmany⟩
      apply load_eq_set hgoverns hload hafter _ hitems
      rw [hsetting]
      exact Environment.toTexts?_map_text items
    · refine ⟨fun hmany => absurd hlone hmany, fun _ => ?_⟩
      apply load_eq_invalid hgoverns hload hafter
      rw [hsetting]
      exact hscalar.no_list
  · intro x hx hload hafter text htext
    obtain ⟨hgoverns, hkey, hspelled⟩ := governs_textVariables x hx
    have hread := Environment.toText?_setting hkey text
    have heq := load_eq_set hgoverns hload hafter hread (hspelled text htext)
    refine ⟨heq, ?_⟩
    rw [heq, Except.ok.injEq]
    exact ⟨fun h => hgoverns.set_injective h, fun h => by rw [h]⟩

/-- A directory without files. -/
def emptyWorkspace : Workspace := ⟨.directory []⟩

theorem load_variable_alone :
    load emptyWorkspace [("PROTOGUARD__SCAN__EXCLUDE_PATTERNS", "a,b")] none =
        .ok { Config.default with scan := { Scan.default with exclude := ["a", "b"] } } ∧
      load emptyWorkspace [("PROTOGUARD__PARSER__ECMA_VERSION", "es6")] none =
        .ok { Config.default with parser := { Parser.default with ecmaVersion := "es6" } } := by
  have hlist : load emptyWorkspace [("PROTOGUARD__SCAN__EXCLUDE_PATTERNS", "x")] none =
      .ok (Variable.excludePatterns.set ["x"] .default) := by rfl
  have htext : load emptyWorkspace [("PROTOGUARD__PARSER__ECMA_VERSION", "x")] none =
      .ok (Variable.ecmaVersion.set "x" .default) := by rfl
  have hmany : ¬ LoneScalar ["a", "b"] := by
    rintro ⟨s, hs, -⟩
    cases hs
  have hspelled : spelled "es6" = "es6" := by rfl
  constructor
  · exact ((load_variable emptyWorkspace [] [] none "x" _).1 .excludePatterns (by simp [listVariables]) hlist
      (by decide) ["a", "b"] (by decide) (by decide) trivial).1 hmany
  · exact ((load_variable emptyWorkspace [] [] none "x" _).2 .ecmaVersion (by simp [textVariables]) htext
      (by decide) "es6" rfl).2.2 hspelled

/-- A single pattern that reads as a number, and versions that read as numbers. -/
theorem load_scalars :
    load emptyWorkspace [("PROTOGUARD__SCAN__EXCLUDE_PATTERNS", "x")] none =
        .ok (Variable.excludePatterns.set ["x"] .default) ∧
      load emptyWorkspace [("PROTOGUARD__SCAN__EXCLUDE_PATTERNS", joined ["2024"])] none = .error .invalid ∧
      load emptyWorkspace [("PROTOGUARD__PARSER__ECMA_VERSION", "007")] none =
        .ok (Variable.ecmaVersion.set "7" .default) ∧
      Variable.ecmaVersion.set "7" .default ≠ Variable.ecmaVersion.set "007" .default := by
  refine ⟨by rfl, by rfl, by rfl, ?_⟩
  intro h
  exact absurd (Variable.governs_ecmaVersion.set_injective h) (by decide)

end Config

end PrototypeScan
