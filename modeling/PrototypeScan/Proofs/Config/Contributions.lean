import PrototypeScan.Config.Load
import PrototypeScan.Proofs.Config.Items
import PrototypeScan.Proofs.Tree.Fields

/-!
What a source has to say about one setting. Laying sources over each other lays, for each setting, what
they say about it over each other, and nothing that they say about other settings counts.
-/
namespace PrototypeScan

namespace Setting

/-- A value that is laid over what a way leads to. -/
abbrev Contribution := List Step × Setting

/-- Contributions laid over a value, each over what the ones before it make. -/
def laid (o : Option Setting) (cs : List Contribution) : Option Setting :=
  cs.foldl (fun o c => some (assign c.2 c.1 (o.getD missing))) o

@[simp] theorem laid_nil (o : Option Setting) : laid o [] = o := rfl

@[simp] theorem laid_cons (o : Option Setting) (c : Contribution) (cs : List Contribution) :
    laid o (c :: cs) = laid (some (assign c.2 c.1 (o.getD missing))) cs := rfl

theorem laid_append (o : Option Setting) (cs ds : List Contribution) :
    laid o (cs ++ ds) = laid (laid o cs) ds := List.foldl_append

/-- What an entry of a source contributes to the value under a key of the table with a name. -/
def contributions (name key : String) (e : String × Setting) : List Contribution :=
  match way e.1 with
  | [.key n] => if n = name then (e.2.entries.filter (·.1 = key)).map fun f => ([], f.2) else []
  | .key n :: .key k :: rest => if n = name ∧ k = key then [(rest, e.2)] else []
  | _ => []

/-- An entry of a source that leaves the sections tables: what it says of a whole section is a table, and
it takes no section for a list. -/
def inSections (e : String × Setting) : Bool :=
  match way e.1 with
  | [.key name] => !Config.keys.contains name || e.2.isTable
  | .key name :: .index _ :: _ => !Config.keys.contains name
  | _ => true

/-- Every way starts at a name. -/
theorem way_eq (key : String) : ∃ name rest, way key = .key name :: rest := by
  simp only [way]
  split
  · exact ⟨key, [], rfl⟩
  · cases moreSteps? key.toList.length (key.toList.dropWhile isNameChar) with
    | none => exact ⟨key, [], rfl⟩
    | some rest => exact ⟨_, rest, rfl⟩

theorem get?_overlayEntries (key : String) (old es : List (String × Setting)) :
    Fields.get? key (overlayEntries old es) =
      laid (Fields.get? key old) ((es.filter (·.1 = key)).map fun e => ([], e.2)) := by
  induction es generalizing old with
  | nil => rfl
  | cons e es ih =>
    rw [overlayEntries, ih, overlayEntry, Fields.get?_upsert]
    by_cases he : e.1 = key
    · simp [he, assign]
    · simp [he]

theorem entries_assign_key (v : Setting) (name : String) (rest : List Step) (old : Setting) :
    (assign v (.key name :: rest) old).entries =
      Fields.upsert name (fun o => assign v rest (o.getD missing)) old.entries := rfl

theorem inside_assign (v : Setting) (name other : String) (rest : List Step) (old : Setting) :
    (assign v (.key name :: rest) old).inside other =
      if name = other then (assign v rest ((Fields.get? name old.entries).getD missing)).entries
      else old.inside other := by
  rw [inside, entries_assign_key, Fields.get?_upsert]
  split <;> rfl

theorem isTable_of_inSections {e : String × Setting} (he : inSections e = true) {name : String}
    (hname : name ∈ Config.keys) (hway : way e.1 = [.key name]) : e.2.isTable = true := by
  simpa [inSections, hway, hname] using he

theorem way_ne_of_inSections {e : String × Setting} (he : inSections e = true) {name : String}
    (hname : name ∈ Config.keys) (i : Int) (rest : List Step) : way e.1 ≠ .key name :: .index i :: rest := by
  intro hway
  simp [inSections, hway, hname] at he

theorem under?_assign {e : String × Setting} (he : inSections e = true) {name : String}
    (hname : name ∈ Config.keys) (key : String) (v : Setting) :
    under? name key (assign e.2 (way e.1) v) = laid (under? name key v) (contributions name key e) := by
  obtain ⟨n, rest, hway⟩ := way_eq e.1
  rw [under?, contributions, hway, inside_assign]
  by_cases hn : n = name
  · subst hn
    rw [if_pos rfl]
    -- the whole section, an entry of it or what is in one, or the section as a list
    obtain _ | ⟨k | i, rest⟩ := rest
    · obtain ⟨es, hes⟩ := isTable_iff.1 (isTable_of_inSections he hname hway)
      simp only [assign, hes, overlay, if_true]
      exact get?_overlayEntries key (v.inside n) es
    · rw [entries_assign_key, Fields.get?_upsert]
      by_cases hk : k = key
      · subst hk
        simp [under?, inside]
      · simp [hk, under?, inside]
    · exact absurd hway (way_ne_of_inSections he hname i rest)
  · rw [if_neg hn]
    obtain _ | ⟨k | i, rest⟩ := rest
    · simp [hn, under?]
    · simp [hn, under?]
    · rfl

theorem sectioned_assign {e : String × Setting} (he : inSections e = true) {v : Setting} (hv : v.Sectioned) :
    (assign e.2 (way e.1) v).Sectioned := by
  obtain ⟨n, rest, hway⟩ := way_eq e.1
  rw [hway]
  refine ⟨rfl, fun name hname t ht => ?_⟩
  rw [entries_assign_key, Fields.get?_upsert] at ht
  split at ht
  · next hn =>
    subst hn
    obtain rfl := Option.some.inj ht
    obtain _ | ⟨k | i, rest⟩ := rest
    · obtain ⟨es, hes⟩ := isTable_iff.1 (isTable_of_inSections he hname hway)
      rw [assign, hes, overlay]
      rfl
    · rfl
    · exact absurd hway (way_ne_of_inSections he hname i rest)
  · exact hv.sections name hname t ht

/-- Laying a source over a value changes each setting by what the source says about it, and by nothing
else. -/
theorem sectioned_layer {source : List (String × Setting)} (hs : ∀ e ∈ source, inSections e = true) {v : Setting}
    (hv : v.Sectioned) : (layer v source).Sectioned ∧ ∀ name ∈ Config.keys, ∀ key,
      under? name key (layer v source) =
        laid (under? name key v) (source.flatMap (contributions name key)) := by
  induction source generalizing v with
  | nil => exact ⟨hv, fun _ _ _ => rfl⟩
  | cons e source ih =>
    have he := hs e List.mem_cons_self
    obtain ⟨hlayer, hunder⟩ := ih (fun e h => hs e (List.mem_cons_of_mem _ h)) (sectioned_assign he hv)
    refine ⟨hlayer, fun name hname key => ?_⟩
    rw [layer, List.foldl_cons, ← layer, hunder name hname key, under?_assign he hname,
      List.flatMap_cons, laid_append]

theorem entries_eq_nil {v : Setting} (hv : v.isTable = false) : v.entries = [] := by
  cases v with
  | table => cases hv
  | _ => rfl

theorem overlay_eq_self {v : Setting} (hv : v.isTable = false) (old : Setting) : old.overlay v = v := by
  cases v with
  | table => cases hv
  | _ => rfl

/-! What contributions make of a value, compared with what they make of nothing. -/

/-- A way that stays out of the lists: what is laid there is joined with a table, or replaces what was
there. -/
def OutOfLists (way : List Step) : Prop := ∀ i rest, way ≠ .index i :: rest

/-- The entries `as` of a table made from the value `o` have all keys of the entries `bs` of a table made
from nothing. -/
structure Wider (o : Option Setting) (as bs : List (String × Setting)) : Prop where
  nodup : (bs.map (·.1)).Nodup
  subset : bs.map (·.1) ⊆ as.map (·.1)
  nil : bs = [] → as = [] ∨ o = some (table as)

theorem Wider.upsert {o : Option Setting} {as bs : List (String × Setting)} (h : Wider o as bs)
    (name : String) (f g : Option Setting → Setting) :
    Wider o (Fields.upsert name f as) (Fields.upsert name g bs) := by
  have hmem (f : Option Setting → Setting) (fs : List (String × Setting)) {key : String} :
      key ∈ (Fields.upsert name f fs).map (·.1) ↔ key ∈ fs.map (·.1) ∨ key = name := by
    rw [Fields.keys_upsert]
    split
    · next hname => exact ⟨.inl, fun hk => hk.elim id (· ▸ hname)⟩
    · rw [List.mem_append, List.mem_singleton]
  refine ⟨?_, ?_, fun hnil => absurd hnil (Fields.upsert_ne_nil _ _ _)⟩
  · rw [Fields.keys_upsert]
    split
    · exact h.nodup
    · next hname => exact List.nodup_append.2 ⟨h.nodup, List.pairwise_singleton _ _,
        fun key hkey _ hother => (List.mem_singleton.1 hother).symm ▸ fun heq => hname (heq ▸ hkey)⟩
  · intro key hkey
    rw [hmem] at hkey ⊢
    exact hkey.imp_left (h.subset ·)

theorem Wider.overlayEntries {o : Option Setting} {as bs : List (String × Setting)} (h : Wider o as bs)
    (es : List (String × Setting)) : Wider o (overlayEntries as es) (overlayEntries bs es) := by
  induction es generalizing as bs with
  | nil => exact h
  | cons e es ih =>
    rw [Setting.overlayEntries, Setting.overlayEntries, overlayEntry, overlayEntry]
    exact ih (h.upsert e.1 _ _)

/-- What is made of a value `o`, and what the same makes of nothing: as long as nothing is laid it is the
value, and what is no table replaces it. -/
inductive Over (o : Option Setting) : Option Setting → Option Setting → Prop where
  | kept : Over o o none
  | replaced (v : Setting) (hv : v.isTable = false) : Over o (some v) (some v)
  | joined {as bs : List (String × Setting)} (h : Wider o as bs) : Over o (some (table as)) (some (table bs))

theorem Over.wider {o a b : Option Setting} (h : Over o a b) :
    Wider o (a.getD missing).entries (b.getD missing).entries := by
  cases h with
  | kept =>
    refine ⟨List.nodup_nil, List.nil_subset _, fun _ => ?_⟩
    cases o with
    | none => exact .inl rfl
    | some v =>
      cases hv : v.isTable with
      | false => exact .inl (entries_eq_nil hv)
      | true =>
        obtain ⟨as, rfl⟩ := isTable_iff.1 hv
        exact .inr rfl
  | replaced v hv =>
    have hnil : ((some v).getD missing).entries = [] := entries_eq_nil hv
    rw [hnil]
    exact ⟨List.nodup_nil, List.nil_subset _, fun _ => .inl rfl⟩
  | joined h => exact h

theorem Over.assign {o a b : Option Setting} (h : Over o a b) {way : List Step} (hway : OutOfLists way)
    (v : Setting) :
    Over o (some (assign v way (a.getD missing))) (some (assign v way (b.getD missing))) := by
  match way with
  | [] =>
    rw [Setting.assign, Setting.assign]
    cases hv : v.isTable with
    | false =>
      rw [overlay_eq_self hv, overlay_eq_self hv]
      exact .replaced v hv
    | true =>
      obtain ⟨es, rfl⟩ := isTable_iff.1 hv
      rw [overlay, overlay]
      exact .joined (h.wider.overlayEntries es)
  | .key name :: rest => exact .joined (h.wider.upsert name _ _)
  | .index i :: rest => exact absurd rfl (hway i rest)

theorem over_laid (o : Option Setting) {cs : List Contribution} (hcs : ∀ c ∈ cs, OutOfLists c.1) :
    Over o (laid o cs) (laid none cs) := by
  -- on the contributions, the value and nothing being only where both runs start
  have hrun (a b : Option Setting) (h : Over o a b) : Over o (laid a cs) (laid b cs) := by
    induction cs generalizing a b with
    | nil => exact h
    | cons c cs ih =>
      exact ih (fun d hd => hcs d (List.mem_cons_of_mem _ hd)) _ _
        (h.assign (hcs c List.mem_cons_self) c.2)
  exact hrun o none .kept

/-- Contributions whose result is no table hide what is below them. -/
theorem laid_eq_of_not_table {cs : List Contribution} (hcs : ∀ c ∈ cs, OutOfLists c.1) {v : Setting}
    (hv : laid none cs = some v) (htable : v.isTable = false) (o : Option Setting) :
    laid o cs = some v := by
  have h := over_laid o hcs
  rw [hv] at h
  generalize laid o cs = a at h
  cases h with
  | replaced => rfl
  | joined => cases htable

/-- A value is laid over what is no table as over nothing. -/
theorem assign_of_not_table {way : List Step} (hway : OutOfLists way) (v : Setting) {old : Setting}
    (hold : old.isTable = false) : Setting.assign v way old = Setting.assign v way missing := by
  have hnil : old.entries = missing.entries := entries_eq_nil hold
  match way with
  | [] =>
    rw [Setting.assign, Setting.assign]
    cases hv : v.isTable with
    | false => rw [overlay_eq_self hv, overlay_eq_self hv]
    | true =>
      obtain ⟨es, rfl⟩ := isTable_iff.1 hv
      rw [overlay, overlay, hnil]
  | .key name :: rest => rw [Setting.assign, Setting.assign, hnil]
  | .index i :: rest => exact absurd rfl (hway i rest)

theorem laid_of_not_table {cs : List Contribution} (hcs : ∀ c ∈ cs, OutOfLists c.1) (hne : cs ≠ [])
    {o : Option Setting} (ho : (o.getD missing).isTable = false) : laid o cs = laid none cs := by
  obtain ⟨c, cs, rfl⟩ := List.exists_cons_of_ne_nil hne
  rw [laid_cons, laid_cons, assign_of_not_table (hcs c List.mem_cons_self) c.2 ho]
  rfl

end Setting

end PrototypeScan
