import PrototypeScan.Proofs.Estree.Node

/-!
Documents of trees. A tree is written as an object for each node, with its kind under `type`, its place under
`loc` and its fields under their names; other keys may hold objects without a type, and arrays may hold anything
else beside the objects of nodes. Every such document has that tree as its value, wherever the keys that are no
fields stand, and every tree that can be written has one.
-/
namespace PrototypeScan

/-- Whether a double is a number, and no infinite one. -/
def Binary64.isFinite (x : Binary64) : Bool := x.magnitude < infinityBits

namespace Estree

/-- That a value is an object that says what kind of node it is. -/
def IsTyped (v : Json) : Prop := ∃ kind, v.get? "type" = some (.string kind)

/-- That a `loc` entry, if there is one, says where a node starts, and says so exactly if it has a place. -/
inductive RendersPlace : Option Location → Option Json → Prop where
  | unplaced : RendersPlace none none
  | placed {place : Location} {loc start : Json} (hstart : loc.get? "start" = some start)
    (hline : start.get? "line" = some (.ofNat place.line.toNat))
    (hcolumn : start.get? "column" = some (.ofNat place.column.toNat)) : RendersPlace (some place) (some loc)

mutual

/-- That a value is a document of a tree. -/
inductive Renders : Node → Json → Prop where
  | object {kind : String} {fields : List (String × Value Node)} {place : Option Location} {entries : Entries}
    (hkeys : (entries.map (·.1)).Nodup) (htype : Json.entry? "type" entries = some (.string kind))
    (hplace : RendersPlace place (Json.entry? "loc" entries))
    (hfields : RendersFields fields (entries.filter (!isReserved ·.1))) :
    Renders (.mk kind fields place) (.object entries)

/-- That entries hold fields in their order, with objects without a type among them. -/
inductive RendersFields : List (String × Value Node) → Entries → Prop where
  | nil : RendersFields [] []
  | field {name : String} {v : Value Node} {w : Json} {fields : List (String × Value Node)} {entries : Entries}
    (hname : isReserved name = false) (hvalue : RendersValue v w) (hrest : RendersFields fields entries) :
    RendersFields ((name, v) :: fields) ((name, w) :: entries)
  | untyped (key : String) {object : Entries} {fields : List (String × Value Node)} {entries : Entries}
    (huntyped : ¬ IsTyped (.object object)) (hrest : RendersFields fields entries) :
    RendersFields fields ((key, .object object) :: entries)

/-- That a value is what stands for that of a field. -/
inductive RendersValue : Value Node → Json → Prop where
  | node {n : Node} {v : Json} (h : Renders n v) : RendersValue (.node n) v
  | nodes {ns : List Node} {items : List Json} (h : RendersItems ns items) : RendersValue (.nodes ns) (.array items)
  | string (s : String) : RendersValue (.string s) (.string s)
  | number {x : Binary64} {n : Json.Number} (hfinite : x.isFinite = true) (hvalue : n.toBinary64 = x) :
    RendersValue (.number x) (.number n)
  | bool (b : Bool) : RendersValue (.bool b) (.bool b)
  | null : RendersValue .null .null

/-- That items hold nodes in their order, with anything else among them. -/
inductive RendersItems : List Node → List Json → Prop where
  | nil : RendersItems [] []
  | node {n : Node} {v : Json} {ns : List Node} {items : List Json} (h : Renders n v)
    (hrest : RendersItems ns items) : RendersItems (n :: ns) (v :: items)
  | other {v : Json} {ns : List Node} {items : List Json} (h : ¬ IsTyped v) (hrest : RendersItems ns items) :
    RendersItems ns (v :: items)

end

/-! A document has its tree as its value. -/

theorem RendersPlace.bind_eq {place : Option Location} {loc : Option Json} (h : RendersPlace place loc) :
    loc.bind startLocation? = place := by
  cases h with
  | unplaced => rfl
  | @placed place loc start hstart hline hcolumn =>
    have hle (n : UInt32) : n.toNat ≤ max32 := by
      rw [max32_eq]
      exact Nat.le_sub_one_of_lt n.toNat_lt_size
    have hnat (n : Nat) : (Json.ofNat n).asNat? = some n := by simp [Json.ofNat, Json.asNat?]
    simp only [Option.bind_some, startLocation?, Option.bind_eq_bind, hstart, hline, hcolumn, hnat,
      Option.getD_some, hle, if_true, Nat.min_eq_left, UInt32.ofNat_toNat]

theorem isTyped_object_iff {entries : Entries} : IsTyped (.object entries) ↔ (kind? entries).isSome = true := by
  have hget : (Json.object entries).get? "type" = Json.entry? "type" entries := rfl
  rw [IsTyped, hget, kind?]
  cases Json.entry? "type" entries with
  | none => simp
  | some v => cases v <;> simp [Json.asString?]

theorem asNode?_of_not_isTyped {v : Json} (h : ¬ IsTyped v) : (value v).asNode? = none := by
  cases v with
  | object entries =>
    rw [isTyped_object_iff] at h
    rw [value_object_of_untyped h]
    rfl
  | array _ | null | bool _ | number _ | string _ => rfl

theorem fieldsOf_filter (entries : Entries) : fieldsOf (entries.filter (!isReserved ·.1)) = fieldsOf entries := by
  induction entries with
  | nil => rfl
  | cons e es ih =>
    rw [List.filter_cons, fieldsOf_cons]
    cases hkey : isReserved e.1 with
    | true => simpa using ih
    | false =>
      rw [Bool.not_false, if_pos rfl, fieldsOf_cons, hkey, ih]

theorem fieldsOf_cons_of_untyped (key : String) {object : Entries} (h : ¬ IsTyped (.object object))
    (entries : Entries) : fieldsOf ((key, .object object) :: entries) = fieldsOf entries := by
  have hentry : Node.entry key (value (.object object)) = [] := by
    rw [value_object_of_untyped (mt isTyped_object_iff.2 h)]
    rfl
  rw [fieldsOf_cons, hentry, ite_self, List.nil_append]

theorem value_object_eq {kind : String} {place : Option Location} {entries : Entries}
    (hkeys : (entries.map (·.1)).Nodup) (htype : Json.entry? "type" entries = some (.string kind))
    (hplace : RendersPlace place (Json.entry? "loc" entries)) :
    value (.object entries) = .node (.mk kind (fieldsOf entries) place) := by
  have hkind : kind? entries = some kind := by
    rw [kind?, htype]
    rfl
  have hk := kind_node entries
  have hfields := fields_node hkeys
  have hlocation := location_node hkeys
  rw [hkind, Option.getD_some] at hk
  rw [hplace.bind_eq] at hlocation
  rw [value_object (by rw [hkind]; rfl), ← hk, ← hfields, ← hlocation]
  cases node entries
  rfl

theorem RendersValue.isAbsent_eq {v : Value Node} {w : Json} (h : RendersValue v w) : v.isAbsent = false := by
  cases h <;> rfl

mutual

theorem Renders.value_eq {n : Node} {v : Json} : Renders n v → value v = .node n
  | .object hkeys htype hplace hfields => by
    have hrest := hfields.fieldsOf_eq
    rw [fieldsOf_filter] at hrest
    rw [value_object_eq hkeys htype hplace, hrest]

theorem RendersFields.fieldsOf_eq {fields : List (String × Value Node)} {entries : Entries} :
    RendersFields fields entries → fieldsOf entries = fields
  | .nil => rfl
  | .field hname hvalue hrest => by
    rw [fieldsOf_cons, hname, hvalue.value_eq, hrest.fieldsOf_eq, Node.entry, hvalue.isAbsent_eq]
    rfl
  | .untyped key huntyped hrest => by rw [fieldsOf_cons_of_untyped key huntyped, hrest.fieldsOf_eq]

theorem RendersValue.value_eq {v : Value Node} {w : Json} : RendersValue v w → value w = v
  | .node h => h.value_eq
  | .nodes h => by rw [value, h.nodes_eq]
  | .string s => rfl
  | .number _ hvalue => by rw [value, hvalue]
  | .bool b => rfl
  | .null => rfl

theorem RendersItems.nodes_eq {ns : List Node} {items : List Json} : RendersItems ns items → nodes items = ns
  | .nil => rfl
  | .node h hrest => by rw [nodes, h.value_eq, hrest.nodes_eq]
  | .other h hrest => by
    have hnone := asNode?_of_not_isTyped h
    rw [nodes, hrest.nodes_eq]
    split
    · next hnode =>
      rw [hnode] at hnone
      cases hnone
    · rfl

end

/-! The trees that have documents. -/

mutual

/-- Whether a tree can be written: the fields of each node have different names, none of them that of a key
with another meaning, and none is absent or holds what is no finite number. -/
def isWritable : Node → Bool
  | .mk _ fields _ => decide (fields.map (·.1)).Nodup && fieldsWritable fields

def fieldsWritable : List (String × Value Node) → Bool
  | [] => true
  | f :: fs => fieldWritable f && fieldsWritable fs

def fieldWritable : String × Value Node → Bool
  | (name, v) => !isReserved name && valueWritable v

def valueWritable : Value Node → Bool
  | .node n => isWritable n
  | .nodes ns => listWritable ns
  | .number x => x.isFinite
  | .absent => false
  | .string _ => true
  | .bool _ => true
  | .null => true

def listWritable : List Node → Bool
  | [] => true
  | n :: ns => isWritable n && listWritable ns

end

/-- The entry for a place. -/
def placeEntries : Option Location → Entries
  | none => []
  | some place => [("loc", .object [("start", .object [
      ("line", .ofNat place.line.toNat), ("column", .ofNat place.column.toNat)])])]

mutual

/-- The document of a tree that holds nothing else. -/
def written : Node → Json
  | .mk kind fields place => .object (("type", .string kind) :: (placeEntries place ++ fieldsWritten fields))

def fieldsWritten : List (String × Value Node) → Entries
  | [] => []
  | f :: fs => fieldWritten f :: fieldsWritten fs

def fieldWritten : String × Value Node → String × Json
  | (name, v) => (name, valueWritten v)

def valueWritten : Value Node → Json
  | .node n => written n
  | .nodes ns => .array (listWritten ns)
  | .number x => .number (.real x)
  | .absent => .null
  | .string s => .string s
  | .bool b => .bool b
  | .null => .null

def listWritten : List Node → List Json
  | [] => []
  | n :: ns => written n :: listWritten ns

end

theorem keys_fieldsWritten (fs : List (String × Value Node)) : (fieldsWritten fs).map (·.1) = fs.map (·.1) := by
  induction fs with
  | nil => rfl
  | cons f fs ih => rw [fieldsWritten, List.map_cons, List.map_cons, ih, fieldWritten]

theorem isReserved_of_fieldsWritable {fs : List (String × Value Node)} (h : fieldsWritable fs = true) :
    ∀ name ∈ fs.map (·.1), isReserved name = false := by
  induction fs with
  | nil => exact fun name hname => absurd hname List.not_mem_nil
  | cons f fs ih =>
    obtain ⟨name, v⟩ := f
    rw [fieldsWritable, fieldWritable, Bool.and_eq_true, Bool.and_eq_true, Bool.not_eq_true'] at h
    rw [List.map_cons, List.forall_mem_cons]
    exact ⟨h.1.1, ih h.2⟩

theorem rendersPlace_placeEntries (place : Option Location) {entries : Entries}
    (hloc : "loc" ∉ entries.map (·.1)) : RendersPlace place (Json.entry? "loc" (placeEntries place ++ entries)) := by
  cases place with
  | none =>
    rw [placeEntries, List.nil_append, entry?_eq_get?, Fields.get?_of_not_mem hloc]
    exact .unplaced
  | some place => exact .placed rfl rfl rfl

/-- An object with the keys of a node in front of those of its fields is a document of it. -/
theorem renders_object (kind : String) (place : Option Location) {fields : List (String × Value Node)}
    {entries : Entries} (hkeys : (entries.map (·.1)).Nodup) (hnames : ∀ key ∈ entries.map (·.1), isReserved key = false)
    (hfields : RendersFields fields entries) :
    Renders (.mk kind fields place) (.object (("type", .string kind) :: (placeEntries place ++ entries))) := by
  let lead : Entries := ("type", .string kind) :: placeEntries place
  have hlead : (lead.map (·.1)).Nodup ∧ ∀ key ∈ lead.map (·.1), isReserved key = true := by
    cases place <;> simp [lead, placeEntries, isReserved]
  have hdisjoint : ∀ key ∈ lead.map (·.1), ∀ name ∈ entries.map (·.1), key ≠ name := by
    intro key hkey name hname heq
    have hreserved := hlead.2 key hkey
    rw [heq, hnames name hname] at hreserved
    cases hreserved
  have hfilter : (lead ++ entries).filter (!isReserved ·.1) = entries := by
    rw [List.filter_append, List.filter_eq_nil_iff.2, List.filter_eq_self.2, List.nil_append]
    · intro e he
      rw [hnames e.1 (List.mem_map_of_mem he), Bool.not_false]
    · intro e he
      rw [hlead.2 e.1 (List.mem_map_of_mem he)]
      exact Bool.false_ne_true
  show Renders (.mk kind fields place) (.object (lead ++ entries))
  refine .object ?_ rfl ?_ ?_
  · rw [List.map_append]
    exact List.nodup_append.2 ⟨hlead.1, hkeys, hdisjoint⟩
  · exact rendersPlace_placeEntries place fun hloc => absurd (hnames _ hloc) (by decide)
  · rw [hfilter]
    exact hfields

mutual

theorem renders_written (n : Node) (h : isWritable n = true) : Renders n (written n) := by
  cases n with
  | mk kind fields place =>
    rw [isWritable, Bool.and_eq_true, decide_eq_true_iff] at h
    have hnames := isReserved_of_fieldsWritable h.2
    rw [← keys_fieldsWritten] at h hnames
    exact renders_object kind place h.1 hnames (rendersFields_fieldsWritten fields h.2)

theorem rendersFields_fieldsWritten (fs : List (String × Value Node)) (h : fieldsWritable fs = true) :
    RendersFields fs (fieldsWritten fs) := by
  cases fs with
  | nil => exact .nil
  | cons f fs =>
    obtain ⟨name, v⟩ := f
    rw [fieldsWritable, fieldWritable, Bool.and_eq_true, Bool.and_eq_true, Bool.not_eq_true'] at h
    exact .field h.1.1 (rendersValue_valueWritten v h.1.2) (rendersFields_fieldsWritten fs h.2)

theorem rendersValue_valueWritten (v : Value Node) (h : valueWritable v = true) :
    RendersValue v (valueWritten v) := by
  cases v with
  | node n => exact .node (renders_written n h)
  | nodes ns => exact .nodes (rendersItems_listWritten ns h)
  | string s => exact .string s
  | number x => exact .number h rfl
  | bool b => exact .bool b
  | null => exact .null
  | absent => cases h

theorem rendersItems_listWritten (ns : List Node) (h : listWritable ns = true) :
    RendersItems ns (listWritten ns) := by
  cases ns with
  | nil => exact .nil
  | cons n ns =>
    rw [listWritable, Bool.and_eq_true] at h
    exact .node (renders_written n h.1) (rendersItems_listWritten ns h.2)

end

theorem RendersFields.keys_sublist {fields : List (String × Value Node)} {entries : Entries} :
    RendersFields fields entries → (fields.map (·.1)).Sublist (entries.map (·.1))
  | .nil => .slnil
  | .field _ _ hrest => hrest.keys_sublist.cons_cons _
  | .untyped key _ hrest => hrest.keys_sublist.cons key

mutual

theorem Renders.isWritable {n : Node} {v : Json} : Renders n v → isWritable n = true
  | .object hkeys _ _ hfields => by
    have hsublist := hfields.keys_sublist.trans (List.filter_sublist.map _)
    rw [Estree.isWritable, hfields.fieldsWritable, Bool.and_true, decide_eq_true_iff]
    exact hkeys.sublist hsublist

theorem RendersFields.fieldsWritable {fields : List (String × Value Node)} {entries : Entries} :
    RendersFields fields entries → fieldsWritable fields = true
  | .nil => rfl
  | .field hname hvalue hrest => by
    rw [Estree.fieldsWritable, fieldWritable, hname, hvalue.valueWritable, hrest.fieldsWritable]
    rfl
  | .untyped _ _ hrest => hrest.fieldsWritable

theorem RendersValue.valueWritable {v : Value Node} {w : Json} : RendersValue v w → valueWritable v = true
  | .node h => h.isWritable
  | .nodes h => h.listWritable
  | .string _ => rfl
  | .number hfinite _ => hfinite
  | .bool _ => rfl
  | .null => rfl

theorem RendersItems.listWritable {ns : List Node} {items : List Json} :
    RendersItems ns items → listWritable ns = true
  | .nil => rfl
  | .node h hrest => by
    rw [Estree.listWritable, h.isWritable, hrest.listWritable]
    rfl
  | .other _ hrest => hrest.listWritable

end

/-- Every document of a tree has that tree as its value, and the trees that have documents are those that can be
written. -/
theorem value_rendered (n : Node) :
    ((∃ v, Renders n v) ↔ isWritable n = true) ∧ ∀ v, Renders n v → value v = .node n := by
  refine ⟨⟨?_, ?_⟩, ?_⟩
  · rintro ⟨v, h⟩
    exact h.isWritable
  · exact fun h => ⟨written n, renders_written n h⟩
  · exact fun v h => h.value_eq

/-- A program with one name in it. -/
def namedProgram : Node :=
  .mk "Program" [("body", .nodes [.mk "Identifier" [("name", .string "x")] none]), ("start", .number (.ofInt 3))]
    (some ⟨7, 0⟩)

/-- A document of it in which the keys that are no fields come last, with an object without a type and with a list
that holds more than the name. -/
def namedProgramDocument : Json :=
  .object [
    ("tokens", .object [("type", .ofNat 1)]),
    ("body", .array [
      .null,
      .array [.object [("type", .string "Identifier")]],
      .object [("name", .string "x"), ("type", .string "Identifier")],
      .object []]),
    ("start", .ofNat 3),
    ("loc", .object [("end", .null), ("start", .object [("column", .ofNat 0), ("line", .ofNat 7)])]),
    ("type", .string "Program")]

theorem not_isTyped_of_get? {v : Json} (h : (v.get? "type").bind (·.asString?) = none) : ¬ IsTyped v := by
  rintro ⟨kind, hkind⟩
  rw [hkind] at h
  cases h

theorem renders_namedProgramDocument : Renders namedProgram namedProgramDocument := by
  have hname : Renders (.mk "Identifier" [("name", .string "x")] none)
      (.object [("name", .string "x"), ("type", .string "Identifier")]) :=
    .object (by decide) rfl .unplaced (.field rfl (.string "x") .nil)
  have hbody : RendersItems [.mk "Identifier" [("name", .string "x")] none] [
      .null,
      .array [.object [("type", .string "Identifier")]],
      .object [("name", .string "x"), ("type", .string "Identifier")],
      .object []] :=
    .other (not_isTyped_of_get? rfl) <| .other (not_isTyped_of_get? rfl) <| .node hname <|
      .other (not_isTyped_of_get? rfl) .nil
  have hstart : RendersValue (.number (.ofInt 3)) (.ofNat 3) := .number (by decide) rfl
  refine .object (by decide) rfl (.placed rfl rfl rfl) ?_
  exact .untyped "tokens" (not_isTyped_of_get? rfl) <| .field rfl (.nodes hbody) <| .field rfl hstart .nil

theorem value_rendered_namedProgram :
    Renders namedProgram namedProgramDocument ∧ value namedProgramDocument = .node namedProgram :=
  ⟨renders_namedProgramDocument, (value_rendered namedProgram).2 _ renders_namedProgramDocument⟩

end Estree

end PrototypeScan
