import PrototypeScan.Config.Conversion

/-!
The settings one by one: where each stands, how its value is read, and which value it has where there is
none. What the conversion of all settings gives is, for each of them, what its own value is read as.
-/
namespace PrototypeScan

namespace Setting

def isTable : Setting → Bool
  | table _ => true
  | _ => false

theorem isTable_iff {v : Setting} : v.isTable = true ↔ ∃ es, v = table es := by
  cases v <;> simp [isTable]

/-- The entries of the table with a name: none if there is no such table. -/
def inside (name : String) (v : Setting) : List (String × Setting) :=
  ((Fields.get? name v.entries).getD missing).entries

/-- The value under a key of the table with a name. -/
def under? (name key : String) (v : Setting) : Option Setting := Fields.get? key (v.inside name)

/-- A table whose entries for the sections are tables. -/
structure Sectioned (v : Setting) : Prop where
  isTable : v.isTable = true
  sections : ∀ name ∈ Config.keys, ∀ t, Fields.get? name v.entries = some t → t.isTable = true

/-- A table that can be read has one entry, and only its key counts. -/
def OnKey {α : Type} (read? : Setting → Option α) : Prop :=
  ∀ es x, read? (table es) = some x → ∃ key v, es = [(key, v)] ∧ ∀ w, read? (table [(key, w)]) = some x

theorem onKey_of_table {α : Type} {read? : Setting → Option α} (h : ∀ es, read? (table es) = none) :
    OnKey read? :=
  fun es _ hx => nomatch (h es).symm.trans hx

theorem onKey_optional? {α : Type} {read? : Setting → Option α} (h : ∀ es, read? (table es) = none) :
    OnKey (optional? read?) :=
  onKey_of_table fun es => congrArg (Option.map some) (h es)

theorem onKey_choice? {α : Type} (ofText? : String → Option α) : OnKey (choice? ofText?) := by
  intro es x h
  match es with
  | [] => cases h
  | [(key, v)] => exact ⟨key, v, rfl, fun _ => h⟩
  | _ :: _ :: _ => cases h

end Setting

namespace Config
open Setting

/-- A setting: the section it is in, its key there, how a value is read, and its place among all. -/
structure Item where
  {α : Type}
  table : String
  key : String
  read? : Setting → Option α
  get : Config → α

/-- What a value of a setting is converted to: its built-in value if there is none. -/
def Item.converted? (s : Item) : Option Setting → Option s.α
  | some v => s.read? v
  | none => some (s.get Config.default)

def Logging.items : List Item := [
  ⟨"logging", "level", toText?, (·.logging.level)⟩,
  ⟨"logging", "format", toText?, (·.logging.format)⟩]

def Scan.items : List Item := [
  ⟨"scan", "max_scan_depth", toNat?, (·.scan.maxDepth)⟩,
  ⟨"scan", "exclude_patterns", toTexts?, (·.scan.exclude)⟩,
  ⟨"scan", "max_file_size_bytes", optional? toNat?, (·.scan.maxFileSize)⟩,
  ⟨"scan", "max_concurrent_files", toNat?, (·.scan.maxConcurrent)⟩,
  ⟨"scan", "max_tree_nodes", optional? toNat?, (·.scan.limits.nodes)⟩,
  ⟨"scan", "max_tree_depth", optional? toNat?, (·.scan.limits.depth)⟩,
  ⟨"scan", "sensitive_properties", toTexts?, (·.scan.properties)⟩]

def Parser.items : List Item := [
  ⟨"parser", "frontend", choice? Frontend.ofText?, (·.parser.frontend)⟩,
  ⟨"parser", "node_executable", toText?, (·.parser.executable)⟩,
  ⟨"parser", "node_modules_dir", optional? toText?, (·.parser.modulesDirectory)⟩,
  ⟨"parser", "timeout_seconds", toNat?, (·.parser.timeout)⟩,
  ⟨"parser", "ecma_version", toText?, (·.parser.ecmaVersion)⟩,
  ⟨"parser", "default_source_type", choice? SourceType.ofText?, (·.parser.sourceType)⟩]

/-- All settings. -/
def items : List Item := Logging.items ++ (Scan.items ++ Parser.items)

theorem forall_mem_items {P : Item → Prop} : (∀ s ∈ items, P s) ↔
    (∀ s ∈ Logging.items, P s) ∧ (∀ s ∈ Scan.items, P s) ∧ ∀ s ∈ Parser.items, P s := by
  simp only [items, List.forall_mem_append]

theorem table_mem_keys : ∀ s ∈ items, s.table ∈ keys := by
  simp [forall_mem_items, Logging.items, Scan.items, Parser.items, keys]

theorem onKey_read? : ∀ s ∈ items, OnKey s.read? := by
  have number : OnKey toNat? := onKey_of_table fun _ => rfl
  have text : OnKey toText? := onKey_of_table fun _ => rfl
  have texts : OnKey toTexts? := onKey_of_table fun _ => rfl
  have number? : OnKey (optional? toNat?) := onKey_optional? fun _ => rfl
  have text? : OnKey (optional? toText?) := onKey_optional? fun _ => rfl
  simp only [forall_mem_items, Logging.items, Scan.items, Parser.items, List.forall_mem_cons,
    List.not_mem_nil, false_implies, implies_true, and_true]
  exact ⟨⟨text, text⟩, ⟨number, texts, number?, number, number?, number?, texts⟩,
    onKey_choice? _, text, text?, number, text, onKey_choice? _⟩

/-! The conversion, section by section. -/

theorem part?_eq_converted? (s : Item) (es : List (String × Setting)) :
    part? es s.key s.read? (s.get Config.default) = s.converted? (Fields.get? s.key es) := by
  rw [part?]
  cases Fields.get? s.key es <;> rfl

theorem Logging.ofSetting?_inside {v : Setting} {c : Config} :
    Logging.ofSetting? (.table (v.inside "logging")) = some c.logging ↔
      ∀ s ∈ Logging.items, s.converted? (v.under? s.table s.key) = some (s.get c) := by
  obtain ⟨⟨level, format⟩, scan, parser⟩ := c
  simp only [Logging.items, List.forall_mem_cons, List.not_mem_nil, false_implies, implies_true,
    and_true, under?, ← part?_eq_converted?]
  simp [Logging.ofSetting?, parts?, Option.bind_eq_some_iff, Config.default]

theorem Scan.ofSetting?_inside {v : Setting} {c : Config} :
    Scan.ofSetting? (.table (v.inside "scan")) = some c.scan ↔
      ∀ s ∈ Scan.items, s.converted? (v.under? s.table s.key) = some (s.get c) := by
  obtain ⟨_, ⟨_, _, _, _, ⟨_, _⟩, _⟩, _⟩ := c
  simp only [Scan.items, List.forall_mem_cons, List.not_mem_nil, false_implies, implies_true,
    and_true, under?, ← part?_eq_converted?]
  simp only [Scan.ofSetting?, parts?, Option.bind_eq_bind, Option.bind_some, Option.bind_eq_some_iff,
    Option.pure_def, Option.some.injEq, Scan.mk.injEq, PrototypeScan.Scan.Limits.mk.injEq]
  constructor
  · rintro ⟨_, h₁, _, h₂, _, h₃, _, h₄, _, h₅, _, h₆, _, h₇, rfl, rfl, rfl, rfl, ⟨rfl, rfl⟩, rfl⟩
    exact ⟨h₁, h₂, h₃, h₄, h₅, h₆, h₇⟩
  · rintro ⟨h₁, h₂, h₃, h₄, h₅, h₆, h₇⟩
    exact ⟨_, h₁, _, h₂, _, h₃, _, h₄, _, h₅, _, h₆, _, h₇, rfl, rfl, rfl, rfl, ⟨rfl, rfl⟩, rfl⟩

theorem Parser.ofSetting?_inside {v : Setting} {c : Config} :
    Parser.ofSetting? (.table (v.inside "parser")) = some c.parser ↔
      ∀ s ∈ Parser.items, s.converted? (v.under? s.table s.key) = some (s.get c) := by
  obtain ⟨_, _, ⟨_, _, _, _, _, _⟩⟩ := c
  simp only [Parser.items, List.forall_mem_cons, List.not_mem_nil, false_implies, implies_true,
    and_true, under?, ← part?_eq_converted?]
  simp only [Parser.ofSetting?, parts?, Option.bind_eq_bind, Option.bind_some, Option.bind_eq_some_iff,
    Option.pure_def, Option.some.injEq, Parser.mk.injEq]
  constructor
  · rintro ⟨_, h₁, _, h₂, _, h₃, _, h₄, _, h₅, _, h₆, rfl, rfl, rfl, rfl, rfl, rfl⟩
    exact ⟨h₁, h₂, h₃, h₄, h₅, h₆⟩
  · rintro ⟨h₁, h₂, h₃, h₄, h₅, h₆⟩
    exact ⟨_, h₁, _, h₂, _, h₃, _, h₄, _, h₅, _, h₆, rfl, rfl, rfl, rfl, rfl, rfl⟩

/-- The sections are read one by one. -/
theorem ofSetting?_eq_some_iff_parts {a : Setting} {c : Config} (ha : a.isTable = true) : ofSetting? a = some c ↔
    part? a.entries "logging" Logging.ofSetting? .default = some c.logging ∧
      part? a.entries "scan" Scan.ofSetting? .default = some c.scan ∧
      part? a.entries "parser" Parser.ofSetting? .default = some c.parser := by
  obtain ⟨es, rfl⟩ := isTable_iff.1 ha
  obtain ⟨_, _, _⟩ := c
  simp only [ofSetting?, parts?, entries, Config.default, Option.bind_eq_bind, Option.bind_some,
    Option.bind_eq_some_iff, Option.pure_def, Option.some.injEq, Config.mk.injEq]
  constructor
  · rintro ⟨_, h₁, _, h₂, _, h₃, rfl, rfl, rfl⟩
    exact ⟨h₁, h₂, h₃⟩
  · rintro ⟨h₁, h₂, h₃⟩
    exact ⟨_, h₁, _, h₂, _, h₃, rfl, rfl, rfl⟩

/-- A section that is missing reads as an empty table. -/
theorem part?_inside {α : Type} (read? : Setting → Option α) (standard : α) {v : Setting} {name : String}
    (hempty : read? (.table []) = some standard)
    (h : ∀ t, Fields.get? name v.entries = some t → t.isTable = true) :
    part? v.entries name read? standard = read? (.table (v.inside name)) := by
  rw [part?, inside]
  cases hname : Fields.get? name v.entries with
  | none => exact hempty.symm
  | some t =>
    obtain ⟨ts, rfl⟩ := isTable_iff.1 (h t hname)
    rfl

/-- The settings are read one by one. -/
theorem ofSetting?_eq_some_iff {v : Setting} (hv : v.Sectioned) {c : Config} :
    ofSetting? v = some c ↔
      ∀ s ∈ items, s.converted? (v.under? s.table s.key) = some (s.get c) := by
  have hlogging := part?_inside Logging.ofSetting? .default rfl (hv.sections "logging" (by simp [keys]))
  have hscan := part?_inside Scan.ofSetting? .default rfl (hv.sections "scan" (by simp [keys]))
  have hparser := part?_inside Parser.ofSetting? .default rfl (hv.sections "parser" (by simp [keys]))
  rw [forall_mem_items, ← Logging.ofSetting?_inside,
    ← Scan.ofSetting?_inside, ← Parser.ofSetting?_inside, ofSetting?_eq_some_iff_parts hv.isTable, hlogging, hscan,
    hparser]

end Config

end PrototypeScan
