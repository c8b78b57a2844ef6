import PrototypeScan.Proofs.JavaScript.Reached

/-!
The node for a concrete node, as a rule reads it: its kind, its place, and the fields that assignments and
members have.
-/
namespace PrototypeScan.JavaScript.Estree
open Text Concrete

variable {source : Source}

/-! The kind and the place. -/

/-- The kind of the leaf for a concrete node. -/
def leafKind (kind : String) : String :=
  if identifierKinds.contains kind then "Identifier"
  else if kind = privateKind then "PrivateIdentifier" else "Literal"

theorem kind_leaf (kind text : String) (l : Location) : (leaf kind text l).kind = leafKind kind := by
  unfold leaf leafKind
  split
  · rfl
  · split <;> rfl

theorem leafKind_mem (kind : String) :
    leafKind kind ∈ ["Identifier", "PrivateIdentifier", "Literal"] := by
  unfold leafKind
  split
  · decide
  · split <;> decide

theorem kind_converted (source : Source) (c : Concrete) :
    (converted source c).kind =
      if isLeaf c.label.kind then leafKind c.label.kind else kindOf c.label.kind := by
  unfold converted
  split
  · exact kind_leaf _ _ _
  · rw [kind_filled, kind_opened]

theorem location_converted (source : Source) (c : Concrete) :
    (converted source c).location = some (location source c.label.start) := by
  unfold converted
  split
  · unfold leaf
    split
    · rfl
    · split <;> rfl
  · rw [location_filled]
    unfold opened
    repeat' split
    all_goals rfl

/-- Kinds that are no leaves and become one kind are told by that kind. -/
theorem is_converted_iff {c : Concrete} {name : String} {kinds : List String}
    (hname : name ∉ ["Identifier", "PrivateIdentifier", "Literal"])
    (hkinds : ∀ kind ∈ kinds, isLeaf kind = false ∧ kindOf kind = name)
    (h : kindOf c.label.kind = name → c.label.kind ∈ kinds) :
    (converted source c).is name = true ↔ c.label.kind ∈ kinds := by
  rw [Node.is, decide_eq_true_iff, kind_converted]
  cases hleaf : isLeaf c.label.kind with
  | true =>
    rw [if_pos rfl]
    constructor
    · intro hkind
      exact absurd (hkind ▸ leafKind_mem c.label.kind) hname
    · intro hmem
      rw [(hkinds _ hmem).1] at hleaf
      cases hleaf
  | false =>
    rw [if_neg Bool.false_ne_true]
    exact ⟨h, fun hmem => (hkinds _ hmem).2⟩

theorem leafless_assignment : ∀ kind ∈ assignmentKinds,
    isLeaf kind = false ∧ kindOf kind = "AssignmentExpression" := by decide

theorem leafless_member : ∀ kind ∈ memberKinds,
    isLeaf kind = false ∧ kindOf kind = "MemberExpression" := by decide

theorem is_assignment_iff (source : Source) {c : Concrete} (h : Regular c) :
    (converted source c).is "AssignmentExpression" = true ↔ c.label.kind ∈ assignmentKinds :=
  is_converted_iff (by decide) leafless_assignment h.assigns

theorem is_member_iff (source : Source) {c : Concrete} (h : Regular c) :
    (converted source c).is "MemberExpression" = true ↔ c.label.kind ∈ memberKinds :=
  is_converted_iff (by decide) leafless_member h.accesses

/-- A kind of leaf is told by the node, as no other kind is called so. -/
theorem is_leaf_iff {c : Concrete} {name : String}
    (h : kindOf c.label.kind = name → isLeaf c.label.kind = true) :
    (converted source c).is name = true ↔
      isLeaf c.label.kind = true ∧ leafKind c.label.kind = name := by
  rw [Node.is, decide_eq_true_iff, kind_converted]
  cases hleaf : isLeaf c.label.kind with
  | true => simp
  | false =>
    rw [hleaf] at h
    simpa using h

theorem is_identifier_iff (source : Source) {c : Concrete} (h : Regular c) :
    (converted source c).is "Identifier" = true ↔ c.label.kind ∈ identifierKinds := by
  rw [is_leaf_iff h.identifier, leafKind, isLeaf]
  by_cases hmem : c.label.kind ∈ identifierKinds
  · simp [hmem]
  · by_cases hprivate : c.label.kind = privateKind <;> simp [hmem, hprivate]

theorem leafy_literal : ∀ kind ∈ literalKinds,
    isLeaf kind = true ∧ kind ∉ identifierKinds ∧ kind ≠ privateKind := by decide

theorem is_literal_iff (source : Source) {c : Concrete} (h : Regular c) :
    (converted source c).is "Literal" = true ↔ c.label.kind ∈ literalKinds := by
  by_cases hmem : c.label.kind ∈ literalKinds
  · obtain ⟨hleaf, hidentifier, hprivate⟩ := leafy_literal _ hmem
    simp [is_leaf_iff h.literal, leafKind, hleaf, hidentifier, hprivate, hmem]
  · rw [is_leaf_iff h.literal, leafKind, isLeaf]
    by_cases hidentifier : c.label.kind ∈ identifierKinds
    · simp [hmem, hidentifier]
    · by_cases hprivate : c.label.kind = privateKind
      · rw [hprivate]
        decide
      · simp [hmem, hidentifier, hprivate]

/-! The fields of leaves. -/

theorem asString?_literalValue (kind text : String) :
    (literalValue kind text).asString? =
      if kind = "string" then some (Quoted.decode text) else none := by
  unfold literalValue
  split
  · rfl
  · split
    · cases NumberLiteral.value? text <;> rfl
    · repeat' split
      all_goals rfl

theorem field_setField_ofKind (kind name : String) (v : Value Node) :
    ((Node.ofKind kind).setField name v).field name = v := by
  cases hv : v.isAbsent with
  | true =>
    cases v <;> cases hv
    rfl
  | false => exact Node.field_setField_self _ name hv

theorem asString?_name {c : Concrete} (h : c.label.kind ∈ identifierKinds) :
    ((converted source c).field "name").asString? = some (c.text source.chars) := by
  have hcontains : identifierKinds.contains c.label.kind = true := by simpa using h
  have hleaf : isLeaf c.label.kind = true := by simp [isLeaf, h]
  have hfield := field_setField_ofKind "Identifier" "name" (.string (c.text source.chars))
  rw [converted, hleaf, if_pos rfl, leaf, hcontains, if_pos rfl]
  exact congrArg Value.asString? hfield

theorem field_value {c : Concrete} (h : c.label.kind ∈ literalKinds) :
    (converted source c).field "value" = literalValue c.label.kind (c.text source.chars) := by
  obtain ⟨hleaf, hidentifier, hprivate⟩ := leafy_literal _ h
  have hcontains : identifierKinds.contains c.label.kind = false := by simpa using hidentifier
  let value := literalValue c.label.kind (c.text source.chars)
  have hvalue := field_setField_ofKind "Literal" "value" value
  have hfield := Node.field_setField_of_ne ((Node.ofKind "Literal").setField "value" value)
    (show "raw" ≠ "value" by decide) (.string (c.text source.chars))
  rw [converted, hleaf, if_pos rfl, leaf, hcontains, if_neg Bool.false_ne_true, if_neg hprivate]
  exact hfield.trans hvalue

theorem asString?_value {c : Concrete} (h : c.label.kind ∈ literalKinds) :
    ((converted source c).field "value").asString? =
      if c.label.kind = "string" then some (Quoted.decode (c.text source.chars)) else none := by
  rw [field_value h, asString?_literalValue]

/-! The fields of other nodes. -/

/-- The fields that not only children under them fill. -/
def sharedFields : List String := ["body", "expression", "children", "property", "index"]

/-- The fields that a node may have before its children are added. -/
def presetFields : List String := ["sourceType", "operator", "computed"]

theorem mem_childrenAt {field : String} {c d : Concrete} :
    d ∈ childrenAt field c ↔
      d ∈ c.children ∧ d.label.extra = false ∧ d.label.field = some field := by
  simp [childrenAt]

theorem fieldFor_eq_iff {n : Node} {unnamed name : String} (hunnamed : unnamed ≠ name)
    (hname : name ≠ "property") (hname' : name ≠ "index") {field : Option String} :
    fieldFor n unnamed field = name ↔ field = some name := by
  unfold fieldFor
  split
  · simpa using hunnamed
  · constructor
    · intro h
      split at h
      · exact absurd h.symm hname
      · exact absurd h.symm hname'
    · intro h
      exact absurd (Option.some.inj h).symm hname'
  · rw [Option.some.injEq]

theorem fieldFor_eq_property_iff {n : Node} {unnamed : String} (hunnamed : unnamed ≠ "property")
    (hn : n.is "MemberExpression" = true) {field : Option String} :
    fieldFor n unnamed field = "property" ↔ field = some "property" ∨ field = some "index" := by
  unfold fieldFor
  split
  · simpa using hunnamed
  · simp [hn]
  · next name hname => simpa using fun h : name = "index" => absurd h hname

theorem unnamedField_ne {name : String} (h : name ∉ ["body", "expression", "children"]) (kind : String) :
    unnamedField kind ≠ name := by
  have hmem : unnamedField kind ∈ ["body", "expression", "children"] := by
    unfold unnamedField
    repeat' split
    all_goals decide
  exact fun hname => h (hname ▸ hmem)

/-- A field that is not shared is filled by the children under it. -/
theorem slotIn_eq_iff {c d : Concrete} {name : String}
    (hname : name ∉ sharedFields) :
    slotIn c d = some name ↔ d.label.extra = false ∧ d.label.field = some name := by
  simp only [sharedFields, List.mem_cons, List.not_mem_nil, or_false, not_or] at hname
  obtain ⟨hbody, hexpression, hchildren, hproperty, hindex⟩ := hname
  have hunnamed : unnamedField c.label.kind ≠ name :=
    unnamedField_ne (by simp [hbody, hexpression, hchildren]) _
  have hfor {n : Node} {field : Option String} :
      fieldFor n (unnamedField c.label.kind) field = name ↔ field = some name :=
    fieldFor_eq_iff hunnamed hproperty hindex
  cases hextra : d.label.extra <;> cases hnamed : d.label.named <;>
    simp [slotIn, slot?, hextra, hnamed, hfor]

theorem slotIn_eq_property_iff {c d : Concrete} (h : c.label.kind ∈ memberKinds) :
    slotIn c d = some "property" ↔ d.label.extra = false ∧
      (d.label.field = some "property" ∨ d.label.named = true ∧ d.label.field = some "index") := by
  have hunnamed : unnamedField c.label.kind ≠ "property" := unnamedField_ne (by decide) _
  have hmember : (Node.ofKind (kindOf c.label.kind)).is "MemberExpression" = true := by
    rw [(leafless_member _ h).2]
    rfl
  cases hextra : d.label.extra <;> cases hnamed : d.label.named <;>
    simp [slotIn, slot?, hextra, hnamed, fieldFor_eq_property_iff hunnamed hmember]

theorem filter_slotIn (c : Concrete) (name : String)
    (hname : name ∉ sharedFields) :
    c.children.filter (slotIn c · = some name) = childrenAt name c := by
  refine List.filter_congr fun d _ => ?_
  rw [Bool.eq_iff_iff, decide_eq_true_iff, slotIn_eq_iff hname]
  simp

theorem field_opened (source : Source) (kind : String) (l : Location) {name : String}
    (hname : name ∉ presetFields) :
    (opened source kind l).field name = .absent := by
  simp only [presetFields, List.mem_cons, List.not_mem_nil, or_false, not_or] at hname
  unfold opened
  repeat' split
  · exact Node.field_setField_of_ne _ (Ne.symm hname.1) _
  · exact Node.field_setField_of_ne _ (Ne.symm hname.2.1) _
  · exact Node.field_setField_of_ne _ (Ne.symm hname.2.2) _
  · exact Node.field_setField_of_ne _ (Ne.symm hname.2.2) _
  · rfl

section Element

variable {c : Concrete} (hleaf : isLeaf c.label.kind = false)
include hleaf

theorem field_converted_of_unfilled {name : String}
    (h : ∀ d ∈ c.children, slotIn c d ≠ some name) :
    (converted source c).field name =
      (opened source c.label.kind (location source c.label.start)).field name := by
  rw [converted, hleaf, if_neg Bool.false_ne_true]
  refine field_filled_of_unfilled fun d hd => ?_
  rw [slot?_opened]
  exact h d hd

theorem child?_converted {name : String} (hname : name ∉ presetFields)
    {d : Concrete} (h : c.children.filter (slotIn c · = some name) = [d]) :
    (converted source c).child? name = result? source d := by
  rw [converted, hleaf, if_neg Bool.false_ne_true]
  refine child?_filled (field_opened _ _ _ hname) ?_
  simpa only [slot?_opened] using h

end Element

/-- The child under a field, behind any parentheses. -/
def part? (field : String) (c : Concrete) : Option Concrete := (childrenAt field c).head?.bind inner?

theorem map_part? {field : String} {c d : Concrete} (h : childrenAt field c = [d]) :
    (part? field c).map (converted source) = result? source d := by
  rw [part?, h, List.head?_cons, Option.bind_some, result?_eq_map]

/-- The node in a field that one child is under is the node behind that child's parentheses. -/
theorem child?_of_count {c : Concrete} (hleaf : isLeaf c.label.kind = false) {name : String}
    (hname : name ∉ sharedFields)
    (hpreset : name ∉ presetFields) (hcount : count name c = 1) :
    (converted source c).child? name = (part? name c).map (converted source) := by
  obtain ⟨d, hd⟩ := List.length_eq_one_iff.1 hcount
  have hslots := filter_slotIn c name hname
  rw [map_part? hd, child?_converted hleaf hpreset (hslots.trans hd)]

theorem child?_left {c : Concrete} (h : Regular c) (hkind : c.label.kind ∈ assignmentKinds) :
    (converted source c).child? "left" = (part? "left" c).map (converted source) :=
  child?_of_count (leafless_assignment _ hkind).1 (by decide) (by decide) (h.assignment hkind)

theorem child?_object {c : Concrete} (h : Regular c) (hkind : c.label.kind ∈ memberKinds) :
    (converted source c).child? "object" = (part? "object" c).map (converted source) :=
  child?_of_count (leafless_member _ hkind).1 (by decide) (by decide) (h.object hkind)

theorem field_ne_of_count {c d : Concrete} {field : String} (h : count field c = 0)
    (hd : d ∈ c.children) (hextra : d.label.extra = false) : d.label.field ≠ some field := by
  intro hfield
  have hmem := mem_childrenAt.2 ⟨hd, hextra, hfield⟩
  rw [List.eq_nil_of_length_eq_zero h] at hmem
  cases hmem

theorem child?_property_of_member {c : Concrete} (h : Regular c)
    (hkind : c.label.kind = "member_expression") :
    (converted source c).child? "property" = (part? "property" c).map (converted source) := by
  have hmember : c.label.kind ∈ memberKinds := by rw [hkind]; decide
  obtain ⟨hproperty, hindex⟩ := h.member hkind
  obtain ⟨d, hd⟩ := List.length_eq_one_iff.1 hproperty
  have hslots : c.children.filter (slotIn c · = some "property") = childrenAt "property" c := by
    refine List.filter_congr fun e he => ?_
    rw [Bool.eq_iff_iff, decide_eq_true_iff, slotIn_eq_property_iff hmember]
    cases hextra : e.label.extra with
    | true => simp
    | false => simp [field_ne_of_count hindex he hextra]
  rw [map_part? hd, child?_converted (leafless_member _ hmember).1 (by decide) (hslots.trans hd)]

/-- The index of a subscript is stored as the property. A token there is not stored as one, and gives no
node either. -/
theorem child?_property_of_subscript {c : Concrete} (h : Regular c)
    (hkind : c.label.kind = "subscript_expression") :
    (converted source c).child? "property" = (part? "index" c).map (converted source) := by
  have hmember : c.label.kind ∈ memberKinds := by rw [hkind]; decide
  have hleaf := (leafless_member _ hmember).1
  obtain ⟨hindex, hproperty⟩ := h.subscript hkind
  obtain ⟨d, hd⟩ := List.length_eq_one_iff.1 hindex
  have hslots : c.children.filter (slotIn c · = some "property") =
      (childrenAt "index" c).filter (·.label.named) := by
    rw [childrenAt, List.filter_filter]
    refine List.filter_congr fun e he => ?_
    rw [Bool.eq_iff_iff, decide_eq_true_iff, slotIn_eq_property_iff hmember]
    cases hextra : e.label.extra with
    | true => simp
    | false => simp [field_ne_of_count hproperty he hextra]
  rw [map_part? hd]
  cases hnamed : d.label.named with
  | true =>
    refine child?_converted hleaf (by decide) ?_
    rw [hslots, hd, List.filter_cons, if_pos hnamed, List.filter_nil]
  | false =>
    rw [hd, List.filter_cons, if_neg (by simpa using hnamed), List.filter_nil] at hslots
    have hunfilled : ∀ e ∈ c.children, slotIn c e ≠ some "property" := by
      simpa using List.filter_eq_nil_iff.1 hslots
    rw [result?_of_token hnamed, Node.child?, field_converted_of_unfilled hleaf hunfilled,
      field_opened _ _ _ (by decide)]
    rfl

theorem field_computed {c : Concrete} (h : Regular c) (hkind : c.label.kind ∈ memberKinds) :
    (converted source c).field "computed" = .bool (c.label.kind = "subscript_expression") := by
  rw [field_converted_of_unfilled (leafless_member _ hkind).1]
  · simp only [memberKinds, List.mem_cons, List.not_mem_nil, or_false] at hkind
    rcases hkind with hkind | hkind <;> rw [hkind] <;> rfl
  · intro d hd hslot
    obtain ⟨hextra, hfield⟩ := (slotIn_eq_iff (by decide)).1 hslot
    exact field_ne_of_count h.computed hd hextra hfield

end PrototypeScan.JavaScript.Estree
