import PrototypeScan.Proofs.Estree.Node
import PrototypeScan.Proofs.Rule.Pollution

/-!
What the pollution rule finds in an ESTree document, read off the document itself: one walks over the typed
objects and looks at the assignments among them.
-/
namespace PrototypeScan.Estree

/-- The entries of a typed object. -/
def typed? : Json → Option Entries
  | .object entries => if (kind? entries).isSome then some entries else none
  | _ => none

/-- The typed object under a key. -/
def child? (key : String) (entries : Entries) : Option Entries :=
  (Json.entry? key entries).bind typed?

/-- The text under a key. -/
def text? (key : String) (entries : Entries) : Option String :=
  (Json.entry? key entries).bind (·.asString?)

/-- The name of a property as far as it is written out: a string, or an identifier in a member that is
known not to be computed. -/
def writtenName? (member property : Entries) : Option String :=
  if kind? property = some "Literal" then text? "value" property
  else if kind? property = some "Identifier" ∧
      (Json.entry? "computed" member).bind (·.asBool?) = some false then
    text? "name" property
  else none

/-- A number in the `loc.start` of an object, unless it is negative or no integer. -/
def startNumber? (key : String) (entries : Entries) : Option Nat :=
  (((Json.entry? "loc" entries).bind (·.get? "start")).bind (·.get? key)).bind (·.asNat?)

/-- The line where an object starts, if it has one of 32 bits. -/
def startLine? (entries : Entries) : Option UInt32 :=
  ((startNumber? "line" entries).filter (· < UInt32.size)).map .ofNat

/-- The column where an object with a line starts: zero if there is none, and at most the largest number of
32 bits. -/
def startColumn? (entries : Entries) : Option UInt32 :=
  (startLine? entries).map fun _ =>
    .ofNat (min ((startNumber? "column" entries).getD 0) (UInt32.size - 1))

/-- How a snippet calls the object of a member. -/
def ownerText (member : Entries) : String :=
  match child? "object" member with
  | some object =>
    if kind? object = some "Identifier" then (text? "name" object).getD Pollution.placeholder
    else Pollution.placeholder
  | none => Pollution.placeholder

/-- The finding at an object that assigns to a member with a sensitive name. -/
def findingAt? (properties : List String) (entries : Entries) : Option Finding := do
  let member ← if kind? entries = some "AssignmentExpression" then child? "left" entries else none
  let property ← if kind? member = some "MemberExpression" then child? "property" member else none
  let name ← writtenName? member property
  if name ∈ properties then
    some {
      ruleName := Pollution.ruleName
      line := .ofOption (startLine? property)
      column := startColumn? property
      propertyName := name
      snippet := ownerText member ++ "." ++ name
      severity := .high }
  else none

/-! The same read off the nodes. -/

/-- An object that has a node, in which no key stands twice. -/
structure IsNode (entries : Entries) : Prop where
  typed : (kind? entries).isSome = true
  distinct : distinctKeys (.object entries) = true

theorem IsNode.nodup {entries : Entries} (h : IsNode entries) : (entries.map (·.1)).Nodup := by
  have hdistinct := h.distinct
  rw [distinctKeys, Bool.and_eq_true, decide_eq_true_iff] at hdistinct
  exact hdistinct.1

theorem distinctKeys_of_entry? {key : String} {v : Json} {es : Entries}
    (h : entriesDistinct es = true) (hv : Json.entry? key es = some v) : distinctKeys v = true := by
  induction es with
  | nil => cases hv
  | cons e es ih =>
    rw [entriesDistinct, Bool.and_eq_true] at h
    rw [Json.entry?] at hv
    split at hv
    · obtain rfl := Option.some.inj hv
      rw [entryDistinct] at h
      exact h.1
    · exact ih h.2 hv

theorem typed?_eq_some {v : Json} {entries : Entries} (h : typed? v = some entries) :
    v = .object entries ∧ (kind? entries).isSome = true := by
  cases v with
  | object es =>
    rw [typed?] at h
    split at h
    · next htyped =>
      obtain rfl := Option.some.inj h
      exact ⟨rfl, htyped⟩
    · cases h
  | array _ | null | bool _ | number _ | string _ => cases h

theorem IsNode.child {key : String} {entries child : Entries} (h : IsNode entries)
    (hchild : child? key entries = some child) : IsNode child := by
  have hdistinct := h.distinct
  rw [distinctKeys, Bool.and_eq_true] at hdistinct
  obtain ⟨v, hv, htyped⟩ := Option.bind_eq_some_iff.1 hchild
  obtain ⟨rfl, hkind⟩ := typed?_eq_some htyped
  exact ⟨hkind, distinctKeys_of_entry? hdistinct.2 hv⟩

theorem is_node {entries : Entries} (h : IsNode entries) (kind : String) :
    (node entries).is kind = decide (kind? entries = some kind) := by
  obtain ⟨k, hk⟩ := Option.isSome_iff_exists.1 h.typed
  rw [Node.is, kind_node, hk]
  simp

theorem asNode?_value (v : Json) : (value v).asNode? = (typed? v).map node := by
  cases v with
  | object entries =>
    by_cases htyped : (kind? entries).isSome = true
    · simp [value_object htyped, typed?, htyped, Value.asNode?]
    · simp [value_object_of_untyped htyped, typed?, htyped, Value.asNode?]
  | array _ | null | bool _ | number _ | string _ => simp [value, Value.asNode?, typed?]

theorem asString?_value (v : Json) : (value v).asString? = v.asString? := by
  cases v with
  | object entries =>
    by_cases htyped : (kind? entries).isSome = true
    · rw [value_object htyped]; rfl
    · rw [value_object_of_untyped htyped]; rfl
  | array _ | null | bool _ | number _ | string _ => simp [value, Value.asString?, Json.asString?]

theorem asBool?_value (v : Json) : (value v).asBool? = v.asBool? := by
  cases v with
  | object entries =>
    by_cases htyped : (kind? entries).isSome = true
    · rw [value_object htyped]; rfl
    · rw [value_object_of_untyped htyped]; rfl
  | array _ | null | bool _ | number _ | string _ => simp [value, Value.asBool?, Json.asBool?]

section Field

variable {entries : Entries} (h : IsNode entries) (key : String) (hkey : isReserved key = false)
include h hkey

theorem child?_node : (node entries).child? key = (child? key entries).map node := by
  rw [Node.child?, field_node h.nodup hkey, child?]
  cases Json.entry? key entries with
  | none => rfl
  | some v => exact asNode?_value v

theorem asString?_node : ((node entries).field key).asString? = text? key entries := by
  rw [field_node h.nodup hkey, text?]
  cases Json.entry? key entries with
  | none => rfl
  | some v => exact asString?_value v

theorem asBool?_node :
    ((node entries).field key).asBool? = (Json.entry? key entries).bind (·.asBool?) := by
  rw [field_node h.nodup hkey]
  cases Json.entry? key entries with
  | none => rfl
  | some v => exact asBool?_value v

end Field

/-- The place of an object has the line and the column that are read off its `loc`. -/
theorem location_node_eq {entries : Entries} (h : IsNode entries) :
    (node entries).location.map (·.line) = startLine? entries ∧
      (node entries).location.map (·.column) = startColumn? entries := by
  rw [location_node h.nodup, startColumn?, startLine?, startNumber?, startNumber?]
  cases Json.entry? "loc" entries with
  | none => exact ⟨rfl, rfl⟩
  | some loc =>
    simp only [Option.bind_some, startLocation?]
    cases loc.get? "start" with
    | none => exact ⟨rfl, rfl⟩
    | some start =>
      simp only [Option.bind_some, Option.bind_eq_bind, max32_eq]
      cases (start.get? "line").bind (·.asNat?) with
      | none => exact ⟨rfl, rfl⟩
      | some line =>
        have hfits : line ≤ UInt32.size - 1 ↔ line < UInt32.size :=
          Nat.le_sub_one_iff_lt (by decide)
        by_cases hline : line < UInt32.size
        · rw [Option.filter_some, if_pos (decide_eq_true hline), Option.bind_some,
            if_pos (hfits.2 hline)]
          exact ⟨rfl, rfl⟩
        · rw [Option.filter_some, if_neg (mt of_decide_eq_true hline), Option.bind_some,
            if_neg (mt hfits.1 hline)]
          exact ⟨rfl, rfl⟩

theorem objectText_node {member : Entries} (h : IsNode member) :
    Pollution.objectText (node member) = ownerText member := by
  rw [Pollution.objectText, child?_node h _ rfl, ownerText]
  cases hobject : child? "object" member with
  | none => rfl
  | some object =>
    have hnode := h.child hobject
    rw [Option.map_some, Option.filter_some, is_node hnode]
    by_cases hkind : kind? object = some "Identifier"
    · simp [hkind, asString?_node hnode "name" rfl]
    · simp [hkind]

theorem propertyName?_node {member property : Entries} (h : IsNode member)
    (hproperty : child? "property" member = some property) :
    Pollution.propertyName? (node member) = writtenName? member property := by
  have hnode := h.child hproperty
  rw [Pollution.propertyName?, child?_node h _ rfl, hproperty, Option.map_some, Option.bind_some,
    is_node hnode, is_node hnode, asBool?_node h _ rfl, asString?_node hnode _ rfl,
    asString?_node hnode _ rfl, writtenName?]
  simp only [Bool.and_eq_true, decide_eq_true_eq]

theorem assignedMember?_node {entries : Entries} (h : IsNode entries) :
    Pollution.assignedMember? (node entries) =
      ((if kind? entries = some "AssignmentExpression" then child? "left" entries else none).filter
        (kind? · = some "MemberExpression")).map node := by
  rw [Pollution.assignedMember?, is_node h, child?_node h _ rfl]
  by_cases hkind : kind? entries = some "AssignmentExpression"
  · cases hleft : child? "left" entries with
    | none => simp [hkind]
    | some left =>
      simp [hkind, is_node (h.child hleft), Option.filter_some]
  · simp [hkind]

/-- At the node of an object the pollution rule finds what is read off the object. -/
theorem findingsAt_node {entries : Entries} (h : IsNode entries) (properties : List String) :
    Rule.findingsAt [Pollution.rule properties] (node entries) =
      (findingAt? properties entries).toList := by
  rw [Pollution.findingsAt_rule, assignedMember?_node h, findingAt?]
  congr 1
  by_cases hkind : kind? entries = some "AssignmentExpression"
  · rw [if_pos hkind, if_pos hkind]
    cases hleft : child? "left" entries with
    | none => rfl
    | some member =>
      have hmember := h.child hleft
      by_cases hk : kind? member = some "MemberExpression"
      · cases hproperty : child? "property" member with
        | none => simp [hk, child?_node hmember "property" rfl, hproperty]
        | some property =>
          obtain ⟨hline, hcolumn⟩ := location_node_eq (hmember.child hproperty)
          simp only [Option.filter_some, hk, decide_true, if_true, Option.map_some, Option.bind_some,
            Option.bind_eq_bind, child?_node hmember "property" rfl, hproperty,
            propertyName?_node hmember hproperty]
          cases writtenName? member property with
          | none => rfl
          | some name =>
            by_cases hname : name ∈ properties <;>
              simp [hname, Pollution.report, hline, hcolumn, objectText_node hmember]
      · simp [hk]
  · rw [if_neg hkind, if_neg hkind]
    rfl

mutual

theorem isNode_of_mem_reached {v : Json} (h : distinctKeys v = true) {e : Entries}
    (he : e ∈ reached v) : IsNode e := by
  cases v with
  | object entries =>
    rw [reached] at he
    split at he
    · next htyped =>
      rcases List.mem_cons.1 he with rfl | he
      · exact ⟨htyped, h⟩
      · rw [distinctKeys, Bool.and_eq_true] at h
        exact isNode_of_mem_entriesReached h.2 he
    · cases he
  | array items =>
    rw [distinctKeys] at h
    rw [reached] at he
    exact isNode_of_mem_itemsReached h he
  | null | bool _ | number _ | string _ => cases he

theorem isNode_of_mem_entriesReached {es : Entries} (h : entriesDistinct es = true) {e : Entries}
    (he : e ∈ entriesReached es) : IsNode e := by
  cases es with
  | nil => cases he
  | cons first es =>
    obtain ⟨key, v⟩ := first
    rw [entriesDistinct, Bool.and_eq_true, entryDistinct] at h
    rw [entriesReached, entryReached, List.mem_append] at he
    rcases he with he | he
    · split at he
      · cases he
      · exact isNode_of_mem_reached h.1 he
    · exact isNode_of_mem_entriesReached h.2 he

theorem isNode_of_mem_itemsReached {vs : List Json} (h : itemsDistinct vs = true) {e : Entries}
    (he : e ∈ itemsReached vs) : IsNode e := by
  cases vs with
  | nil => cases he
  | cons v vs =>
    rw [itemsDistinct, Bool.and_eq_true] at h
    cases v with
    | object entries =>
      rw [itemsReached, List.mem_append] at he
      rcases he with he | he
      · exact isNode_of_mem_reached h.1 he
      · exact isNode_of_mem_itemsReached h.2 he
    | array _ | null | bool _ | number _ | string _ =>
      simp only [itemsReached] at he
      exact isNode_of_mem_itemsReached h.2 he

end

/-- Everything the pollution rule finds in the tree of a document, as it is read off the document. -/
theorem offered_document {entries : Entries} (h : IsNode entries) (properties : List String) :
    Scan.offered [Pollution.rule properties] (node entries) =
      (reached (.object entries)).filterMap (findingAt? properties) := by
  have hpreorder := valuePreorder_value (.object entries) h.distinct
  rw [value_object h.typed, Node.valuePreorder] at hpreorder
  rw [Scan.offered, hpreorder, List.flatMap_map, List.filterMap_eq_flatMap_toList]
  apply List.flatMap_congr
  intro e he
  exact findingsAt_node (isNode_of_mem_reached h.distinct he) properties

/-- Scanning the tree of a document whose root is a typed object gives what is read off the document, of
each key the first, inserted by line. -/
theorem value_document {entries : Entries} (htyped : (kind? entries).isSome = true)
    (hdistinct : distinctKeys (.object entries) = true) (properties : List String) :
    Scan.value [Pollution.rule properties] (value (.object entries)) =
      .ok (Finding.collected ((reached (.object entries)).filterMap (findingAt? properties))) := by
  have h : IsNode entries := ⟨htyped, hdistinct⟩
  rw [value_object htyped, Scan.value, Scan.tree_eq_collected, offered_document h]

/-- An object that assigns to a property of `o`, with the given entries in the property. -/
def assignmentObject (property : Entries) : Json :=
  .object [
    ("left", .object [
      ("computed", .bool false),
      ("object", .object [("name", .string "o"), ("type", .string "Identifier")]),
      ("property", .object (("type", .string "Identifier") :: property)),
      ("type", .string "MemberExpression")]),
    ("type", .string "AssignmentExpression")]

/-- A program with an assignment without a place, a list in a list, and the same assignment twice. -/
def program : Entries :=
  let placed := assignmentObject [("name", .string "__proto__"),
    ("loc", .object [("start", .object [("line", .ofNat 3)])])]
  [("type", .string "Program"),
    ("body", .array [
      assignmentObject [("name", .string "prototype")],
      .null,
      .array [assignmentObject [("name", .string "constructor")]],
      placed,
      placed])]

theorem value_document_program :
    (kind? program).isSome = true ∧ distinctKeys (.object program) = true ∧
    Scan.value [Pollution.rule Pollution.defaultProperties] (value (.object program)) =
      .ok [⟨"js-prototype-pollution", .known 3, some 0, "__proto__", "o.__proto__", .high⟩,
        ⟨"js-prototype-pollution", .unknown, none, "prototype", "o.prototype", .high⟩] := by
  refine ⟨by decide, by decide, ?_⟩
  rw [value_document (by decide) (by decide)]
  exact congrArg Except.ok (by decide)

end PrototypeScan.Estree
