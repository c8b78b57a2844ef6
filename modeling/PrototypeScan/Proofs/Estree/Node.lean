import PrototypeScan.Estree.Document
import PrototypeScan.Proofs.Tree.Fields
import PrototypeScan.Proofs.Tree.Preorder

/-!
The node of a typed object. If the keys of the object are different, its fields are the entries that are
neither `type` nor `loc` and have a value, in order, and the nodes below it are the typed objects that one
reaches from its entries.
-/
namespace PrototypeScan.Estree

/-- The entries of an object. -/
abbrev Entries := List (String × Json)

/-- The keys that are not fields. -/
def isReserved (key : String) : Bool := key = "type" || key = "loc"

mutual

/-- Whether no object in a value has one key twice. -/
def distinctKeys : Json → Bool
  | .object entries => decide (entries.map (·.1)).Nodup && entriesDistinct entries
  | .array items => itemsDistinct items
  | .null => true
  | .bool _ => true
  | .number _ => true
  | .string _ => true

def entriesDistinct : Entries → Bool
  | [] => true
  | e :: es => entryDistinct e && entriesDistinct es

def entryDistinct : String × Json → Bool
  | (_, v) => distinctKeys v

def itemsDistinct : List Json → Bool
  | [] => true
  | v :: vs => distinctKeys v && itemsDistinct vs

end

mutual

/-- The typed objects that one reaches from the value of a field, each given by its entries: parents come
first, and the entries of an object in order. Objects without a type are skipped, as are scalars, and in
an array everything that is no typed object. -/
def reached : Json → List Entries
  | .object entries =>
    if (kind? entries).isSome then entries :: entriesReached entries else []
  | .array items => itemsReached items
  | .null => []
  | .bool _ => []
  | .number _ => []
  | .string _ => []

def entriesReached : Entries → List Entries
  | [] => []
  | e :: es => entryReached e ++ entriesReached es

def entryReached : String × Json → List Entries
  | (key, v) => if isReserved key then [] else reached v

def itemsReached : List Json → List Entries
  | [] => []
  | .object entries :: vs => reached (.object entries) ++ itemsReached vs
  | _ :: vs => itemsReached vs

end

/-- The node of a typed object. -/
def node (entries : Entries) : Node := addEntries (Node.ofKind ((kind? entries).getD "")) entries

/-- The fields that entries give. -/
def fieldsOf (entries : Entries) : List (String × Value Node) :=
  entries.flatMap fun e => if isReserved e.1 then [] else Node.entry e.1 (value e.2)

theorem fieldsOf_cons (e : String × Json) (es : Entries) :
    fieldsOf (e :: es) =
      (if isReserved e.1 then [] else Node.entry e.1 (value e.2)) ++ fieldsOf es := by
  rw [fieldsOf, List.flatMap_cons, fieldsOf]

theorem max32_eq : max32 = UInt32.size - 1 := by decide

theorem entry?_eq_get? (key : String) (es : Entries) : Json.entry? key es = Fields.get? key es := by
  induction es with
  | nil => rfl
  | cons e es ih => rw [Json.entry?, Fields.get?, ih]

theorem mem_keys_of_mem_fieldsOf {name : String} {es : Entries}
    (h : name ∈ (fieldsOf es).map (·.1)) : name ∈ es.map (·.1) := by
  obtain ⟨f, hf, rfl⟩ := List.mem_map.1 h
  obtain ⟨e, he, hfe⟩ := List.mem_flatMap.1 hf
  by_cases hkey : isReserved e.1 = true
  · simp [hkey] at hfe
  · by_cases habsent : (value e.2).isAbsent = true
    · simp [hkey, Node.entry, habsent] at hfe
    · have hname : f = (e.1, value e.2) := by simpa [hkey, Node.entry, habsent] using hfe
      rw [hname]
      exact List.mem_map.2 ⟨e, he, rfl⟩

theorem fields_addEntry (n : Node) (e : String × Json) (h : e.1 ∉ n.fields.map (·.1)) :
    (addEntry n e).fields =
      n.fields ++ if isReserved e.1 then [] else Node.entry e.1 (value e.2) := by
  obtain ⟨key, v⟩ := e
  by_cases htype : key = "type"
  · simp [addEntry, isReserved, htype]
  · by_cases hloc : key = "loc"
    · cases hv : startLocation? v <;> simp [addEntry, isReserved, hloc, hv, Node.withLocation]
      rfl
    · simpa [addEntry, isReserved, htype, hloc] using Node.fields_setField_of_not_mem n (value v) h

theorem fields_addEntries (n : Node) (es : Entries) (hnodup : (es.map (·.1)).Nodup)
    (hnew : ∀ e ∈ es, e.1 ∉ n.fields.map (·.1)) :
    (addEntries n es).fields = n.fields ++ fieldsOf es := by
  induction es generalizing n with
  | nil => simp [addEntries, fieldsOf]
  | cons e es ih =>
    rw [List.map_cons, List.nodup_cons] at hnodup
    have he := fields_addEntry n e (hnew e (by simp))
    rw [addEntries, ih _ hnodup.2, he, fieldsOf_cons, List.append_assoc]
    intro d hd hmem
    rw [he, List.map_append, List.mem_append] at hmem
    rcases hmem with hmem | hmem
    · exact hnew d (by simp [hd]) hmem
    · have hkey : d.1 = e.1 := by
        unfold Node.entry at hmem
        split at hmem
        · simp at hmem
        · split at hmem <;> simp at hmem
          exact hmem
      exact hnodup.1 (hkey ▸ List.mem_map.2 ⟨d, hd, rfl⟩)

theorem kind_addEntry (n : Node) (e : String × Json) : (addEntry n e).kind = n.kind := by
  obtain ⟨key, v⟩ := e
  unfold addEntry
  split
  · rfl
  · split
    · cases startLocation? v <;> rfl
    · rfl

theorem kind_addEntries (n : Node) (es : Entries) : (addEntries n es).kind = n.kind := by
  induction es generalizing n with
  | nil => rfl
  | cons e es ih => rw [addEntries, ih, kind_addEntry]

theorem location_addEntries (n : Node) (es : Entries) (hnodup : (es.map (·.1)).Nodup) :
    (addEntries n es).location = ((Json.entry? "loc" es).bind startLocation?).or n.location := by
  induction es generalizing n with
  | nil => rfl
  | cons e es ih =>
    obtain ⟨key, v⟩ := e
    rw [List.map_cons, List.nodup_cons] at hnodup
    rw [addEntries, ih _ hnodup.2, Json.entry?]
    by_cases hloc : key = "loc"
    · have hrest : Json.entry? "loc" es = none := by
        rw [entry?_eq_get?]
        exact Fields.get?_of_not_mem (hloc ▸ hnodup.1)
      cases hv : startLocation? v <;> simp [addEntry, hloc, hrest, hv, Node.withLocation]
      rfl
    · rw [if_neg hloc]
      by_cases htype : key = "type"
      · simp [addEntry, htype]
      · simp [addEntry, htype, hloc, Node.setField]

/-! The node of a typed object. -/

section Object

variable {entries : Entries} (h : (entries.map (·.1)).Nodup)
include h

theorem fields_node : (node entries).fields = fieldsOf entries := by
  rw [node, fields_addEntries _ _ h (by simp [Node.ofKind, Node.fields])]
  rfl

theorem location_node : (node entries).location = (Json.entry? "loc" entries).bind startLocation? := by
  rw [node, location_addEntries _ _ h]
  exact Option.or_none

theorem field_node {name : String} (hname : isReserved name = false) :
    (node entries).field name = ((Json.entry? name entries).map value).getD .absent := by
  rw [Node.field, fields_node h]
  induction entries with
  | nil => rfl
  | cons e es ih =>
    obtain ⟨key, v⟩ := e
    rw [List.map_cons, List.nodup_cons] at h
    rw [fieldsOf_cons, Fields.get?_append, Json.entry?]
    by_cases hkey : key = name
    · subst hkey
      have hrest : Fields.get? key (fieldsOf es) = none :=
        Fields.get?_of_not_mem fun hmem => h.1 (mem_keys_of_mem_fieldsOf hmem)
      cases hv : value v <;> simp [hname, hrest, Node.entry, hv, Value.isAbsent, Fields.get?]
    · have hfirst : Fields.get? name (if isReserved key = true then [] else Node.entry key (value v)) =
          none := by
        unfold Node.entry
        split
        · rfl
        · split <;> simp [Fields.get?, hkey]
      rw [hfirst, Option.none_or, ih h.2, if_neg hkey]

end Object

theorem kind_node (entries : Entries) : (node entries).kind = (kind? entries).getD "" :=
  kind_addEntries _ _

theorem value_object {entries : Entries} (h : (kind? entries).isSome = true) :
    value (.object entries) = .node (node entries) := by
  obtain ⟨kind, hkind⟩ := Option.isSome_iff_exists.1 h
  simp [value, node, hkind]

theorem value_object_of_untyped {entries : Entries} (h : ¬ (kind? entries).isSome = true) :
    value (.object entries) = .absent := by
  have hkind : kind? entries = none := by simpa using h
  simp [value, hkind]

/-! The nodes below it. -/

open Node

theorem fieldsPreorder_entry (name : String) (v : Value Node) :
    fieldsPreorder (entry name v) = valuePreorder v := by
  unfold entry
  cases v <;> simp [Value.isAbsent, fieldsPreorder, fieldPreorder, valuePreorder]

mutual

theorem valuePreorder_value (v : Json) (h : distinctKeys v = true) :
    valuePreorder (value v) = (reached v).map node := by
  cases v with
  | object entries =>
    rw [distinctKeys, Bool.and_eq_true, decide_eq_true_iff] at h
    rw [reached]
    by_cases hkind : (kind? entries).isSome = true
    · rw [value_object hkind, valuePreorder, if_pos hkind, List.map_cons,
        ← fieldsPreorder_fieldsOf entries h.2, ← fields_node h.1]
      cases node entries with
      | mk kind fields location => rfl
    · rw [value_object_of_untyped hkind, if_neg hkind]
      rfl
  | array items =>
    rw [distinctKeys] at h
    rw [value, valuePreorder, reached, listPreorder_nodes items h]
  | null => rfl
  | bool b => rfl
  | number n => rfl
  | string s => rfl

theorem fieldsPreorder_fieldsOf (es : Entries) (h : entriesDistinct es = true) :
    fieldsPreorder (fieldsOf es) = (entriesReached es).map node := by
  cases es with
  | nil => rfl
  | cons e es =>
    obtain ⟨key, v⟩ := e
    rw [entriesDistinct, Bool.and_eq_true, entryDistinct] at h
    have hv := valuePreorder_value v h.1
    have hes := fieldsPreorder_fieldsOf es h.2
    rw [fieldsOf_cons, entriesReached, entryReached, List.map_append, fieldsPreorder_append, hes]
    by_cases hkey : isReserved key = true
    · rw [if_pos hkey, if_pos hkey]
      rfl
    · rw [if_neg hkey, if_neg hkey, fieldsPreorder_entry, hv]

theorem listPreorder_nodes (vs : List Json) (h : itemsDistinct vs = true) :
    listPreorder (nodes vs) = (itemsReached vs).map node := by
  cases vs with
  | nil => rfl
  | cons v vs =>
    rw [itemsDistinct, Bool.and_eq_true] at h
    have hv := valuePreorder_value v h.1
    have hvs := listPreorder_nodes vs h.2
    cases v with
    | object entries =>
      rw [itemsReached, List.map_append, ← hv, ← hvs, nodes]
      by_cases hkind : (kind? entries).isSome = true
      · rw [value_object hkind]
        rfl
      · rw [value_object_of_untyped hkind]
        rfl
    | array _ | null | bool _ | number _ | string _ =>
      rw [itemsReached, ← hvs, nodes, value]
      simp

end

end PrototypeScan.Estree
