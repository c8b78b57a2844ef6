import PrototypeScan.Proofs.JavaScript.Conversion
import PrototypeScan.Proofs.JavaScript.Converted
import PrototypeScan.Proofs.Rule.Pollution

/-!
What the pollution rule finds in a source, read off the concrete tree: one looks at the assignments that one
reaches from the root, without the way over the tree for rules.
-/
namespace PrototypeScan.JavaScript.Estree
open Text Concrete

variable {source : Source}

/-- The member that a concrete node assigns to. -/
def assigned? (c : Concrete) : Option Concrete :=
  (if c.label.kind ∈ assignmentKinds then part? "left" c else none).filter (·.label.kind ∈ memberKinds)

/-- The property that a member accesses. -/
def property? (member : Concrete) : Option Concrete :=
  if member.label.kind = "member_expression" then part? "property" member else part? "index" member

/-- The name of a property as far as it is written out: behind a dot, or as a string between brackets. -/
def writtenName? (source : Source) (member property : Concrete) : Option String :=
  if member.label.kind = "member_expression" then
    if property.label.kind = "property_identifier" then some (property.text source.chars) else none
  else if property.label.kind = "string" then some (Quoted.decode (property.text source.chars))
  else none

/-- How a snippet calls the object of a member. -/
def ownerText (source : Source) (member : Concrete) : String :=
  match part? "object" member with
  | some object =>
    if object.label.kind ∈ identifierKinds then object.text source.chars else Pollution.placeholder
  | none => Pollution.placeholder

/-- What a report says of a concrete node that assigns to a member with a sensitive name: the line where the
property starts, its name and the snippet. -/
def detected? (source : Source) (properties : List String) (c : Concrete) :
    Option (Line × String × String) := do
  let member ← assigned? c
  let property ← property? member
  let name ← writtenName? source member property
  if name ∈ properties then
    some (.known (clamp32 (property.label.start.row + 1)), name, ownerText source member ++ "." ++ name)
  else none

/-! The same read off the nodes. -/

theorem part?_eq_some {field : String} {c d : Concrete} (hc : Grammatical c)
    (h : part? field c = some d) :
    Grammatical d ∧ shown d = true ∧ d.label.kind ≠ parenthesized := by
  obtain ⟨e, he, hd⟩ := Option.bind_eq_some_iff.1 h
  obtain ⟨l, cs⟩ := c
  have hmem := (mem_childrenAt.1 (List.mem_of_mem_head? he)).1
  exact inner?_eq_some (hc.child hmem) hd

theorem assignedMember?_converted {c : Concrete} (hc : Grammatical c) (h : Regular c) :
    Pollution.assignedMember? (converted source c) = (assigned? c).map (converted source) := by
  rw [Pollution.assignedMember?, assigned?]
  by_cases hkind : c.label.kind ∈ assignmentKinds
  · rw [if_pos ((is_assignment_iff source h).2 hkind), if_pos hkind, child?_left h hkind]
    cases hleft : part? "left" c with
    | none => rfl
    | some d =>
      obtain ⟨hd, hshown, -⟩ := part?_eq_some hc hleft
      have hmember := is_member_iff source (hd.regular hshown)
      by_cases hdkind : d.label.kind ∈ memberKinds
      · simp [Option.filter_some, hdkind, hmember.2 hdkind]
      · simp [Option.filter_some, hdkind, mt hmember.1 hdkind]
  · rw [if_neg (mt (is_assignment_iff source h).1 hkind), if_neg hkind]
    rfl

theorem child?_property {c : Concrete} (h : Regular c) (hkind : c.label.kind ∈ memberKinds) :
    (converted source c).child? "property" = (property? c).map (converted source) := by
  rw [property?]
  split
  · next hmember => exact child?_property_of_member h hmember
  · next hmember =>
    refine child?_property_of_subscript h ?_
    simpa [memberKinds, hmember] using hkind

/-- Behind a dot there are no parentheses, so the property is the very child under the field. -/
theorem kind_of_property {c property : Concrete} (h : Regular c)
    (hkind : c.label.kind = "member_expression") (hproperty : part? "property" c = some property) :
    property.label.kind = "property_identifier" ∨ property.label.kind = privateKind := by
  obtain ⟨d, hd, hinner⟩ := Option.bind_eq_some_iff.1 hproperty
  have hdkind := h.property hkind d (List.mem_of_mem_head? hd)
  have hparen : d.label.kind ≠ parenthesized := by rcases hdkind with hk | hk <;> rw [hk] <;> decide
  cases hshown : shown d with
  | false =>
    rw [inner?_of_not_shown hshown] at hinner
    cases hinner
  | true =>
    rw [inner?_eq_self hshown hparen] at hinner
    rwa [← Option.some.inj hinner]

theorem propertyName?_of_member {c property : Concrete} (hc : Grammatical c) (h : Regular c)
    (hkind : c.label.kind = "member_expression") (hproperty : property? c = some property) :
    Pollution.propertyName? (converted source c) = writtenName? source c property := by
  have hmember : c.label.kind ∈ memberKinds := by rw [hkind]; decide
  have hpart : part? "property" c = some property := by rw [← hproperty, property?, if_pos hkind]
  obtain ⟨hgrammar, hshown, -⟩ := part?_eq_some hc hpart
  have hliteral := is_literal_iff source (hgrammar.regular hshown)
  have hidentifier := is_identifier_iff source (hgrammar.regular hshown)
  have hcomputed : ((converted source c).field "computed").asBool? = some false := by
    rw [field_computed h hmember, hkind]
    rfl
  rw [Pollution.propertyName?, child?_property h hmember, hproperty, Option.map_some, Option.bind_some,
    hcomputed, writtenName?, if_pos hkind]
  rcases kind_of_property h hkind hpart with hname | hprivate
  · have hmem : property.label.kind ∈ identifierKinds := by rw [hname]; decide
    have hnot : property.label.kind ∉ literalKinds := by rw [hname]; decide
    simp [mt hliteral.1 hnot, hidentifier.2 hmem, hname, asString?_name hmem]
  · have hnot : property.label.kind ∉ literalKinds := by rw [hprivate]; decide
    have hnot' : property.label.kind ∉ identifierKinds := by rw [hprivate]; decide
    have hdot : property.label.kind ≠ "property_identifier" := by rw [hprivate]; decide
    simp [mt hliteral.1 hnot, mt hidentifier.1 hnot', hdot]

theorem propertyName?_of_subscript {c property : Concrete} (hc : Grammatical c) (h : Regular c)
    (hkind : c.label.kind = "subscript_expression") (hproperty : property? c = some property) :
    Pollution.propertyName? (converted source c) = writtenName? source c property := by
  have hmember : c.label.kind ∈ memberKinds := by rw [hkind]; decide
  have hdot : c.label.kind ≠ "member_expression" := by rw [hkind]; decide
  have hpart : part? "index" c = some property := by rw [← hproperty, property?, if_neg hdot]
  obtain ⟨hgrammar, hshown, -⟩ := part?_eq_some hc hpart
  have hliteral := is_literal_iff source (hgrammar.regular hshown)
  have hcomputed : ((converted source c).field "computed").asBool? = some true := by
    rw [field_computed h hmember, hkind]
    rfl
  rw [Pollution.propertyName?, child?_property h hmember, hproperty, Option.map_some, Option.bind_some,
    hcomputed, writtenName?, if_neg hdot]
  by_cases hmem : property.label.kind ∈ literalKinds
  · rw [if_pos (hliteral.2 hmem), asString?_value hmem]
  · have hstring : property.label.kind ≠ "string" := by
      intro hstring
      rw [hstring] at hmem
      exact hmem (by decide)
    simp [mt hliteral.1 hmem, hstring]

theorem propertyName?_converted {c property : Concrete} (hc : Grammatical c) (h : Regular c)
    (hkind : c.label.kind ∈ memberKinds) (hproperty : property? c = some property) :
    Pollution.propertyName? (converted source c) = writtenName? source c property := by
  simp only [memberKinds, List.mem_cons, List.not_mem_nil, or_false] at hkind
  rcases hkind with hkind | hkind
  · exact propertyName?_of_member hc h hkind hproperty
  · exact propertyName?_of_subscript hc h hkind hproperty

theorem objectText_converted {c : Concrete} (hc : Grammatical c) (h : Regular c)
    (hkind : c.label.kind ∈ memberKinds) :
    Pollution.objectText (converted source c) = ownerText source c := by
  rw [Pollution.objectText, child?_object h hkind, ownerText]
  cases hobject : part? "object" c with
  | none => rfl
  | some object =>
    obtain ⟨hd, hshown, -⟩ := part?_eq_some hc hobject
    have hidentifier := is_identifier_iff source (hd.regular hshown)
    by_cases hname : object.label.kind ∈ identifierKinds
    · simp [Option.filter_some, hname, hidentifier.2 hname, asString?_name hname]
    · simp [Option.filter_some, hname, mt hidentifier.1 hname]

theorem assigned?_eq_some {c member : Concrete} (hc : Grammatical c) (h : assigned? c = some member) :
    Grammatical member ∧ Regular member ∧ member.label.kind ∈ memberKinds := by
  rw [assigned?, Option.filter_eq_some_iff, decide_eq_true_iff] at h
  obtain ⟨hleft, hkind⟩ := h
  split at hleft
  · obtain ⟨hmember, hshown, -⟩ := part?_eq_some hc hleft
    exact ⟨hmember, hmember.regular hshown, hkind⟩
  · cases hleft

/-- At the node for a concrete node the pollution rule finds what is read off the concrete node. -/
theorem findingsAt_converted {c : Concrete} (hc : Grammatical c) (hshown : shown c = true)
    (properties : List String) :
    (Rule.findingsAt [Pollution.rule properties] (converted source c)).map
        (fun f => (f.line, f.propertyName, f.snippet)) = (detected? source properties c).toList := by
  rw [Pollution.findingsAt_rule, assignedMember?_converted hc (hc.regular hshown), detected?]
  cases hassigned : assigned? c with
  | none => rfl
  | some member =>
    obtain ⟨hmember, hregular, hkind⟩ := assigned?_eq_some hc hassigned
    simp only [Option.map_some, Option.bind_some, Option.bind_eq_bind, child?_property hregular hkind]
    cases hproperty : property? member with
    | none => rfl
    | some property =>
      simp only [Option.map_some, Option.bind_some,
        propertyName?_converted hmember hregular hkind hproperty]
      cases writtenName? source member property with
      | none => rfl
      | some name =>
        by_cases hname : name ∈ properties
        · simp [hname, Pollution.report, location_converted, location, locationOf, Line.ofOption,
            objectText_converted hmember hregular hkind]
        · simp [hname]

/-- What a report on the tree for a source says is what is read off the concrete tree. -/
theorem mem_report_iff {root top : Concrete} (h : Grammatical root) (htop : inner? root = some top)
    (properties : List String) {t : Line × String × String} :
    t ∈ (Scan.tree [Pollution.rule properties] (converted source top)).map
        (fun f => (f.line, f.propertyName, f.snippet)) ↔
      t ∈ (reached root).filterMap (detected? source properties) := by
  have hkeys := Finding.mem_map_collected (fun k => (k.line, k.propertyName, k.snippet))
    (Scan.offered [Pollution.rule properties] (converted source top)) (b := t)
  have hat (c : Concrete) (hc : c ∈ reached root) :
      t ∈ (Rule.findingsAt [Pollution.rule properties] (converted source c)).map
        (fun f => (f.line, f.propertyName, f.snippet)) ↔ detected? source properties c = some t := by
    obtain ⟨hgrammar, hshown⟩ := of_mem_reached h hc
    rw [findingsAt_converted hgrammar hshown, Option.mem_toList]
  rw [Scan.tree_eq_collected, List.mem_filterMap]
  refine hkeys.trans ?_
  rw [Scan.offered, List.map_flatMap, List.mem_flatMap]
  constructor
  · rintro ⟨m, hm, ht⟩
    obtain ⟨c, hc, rfl⟩ := (mem_preorder_converted h htop).1 hm
    exact ⟨c, hc, (hat c hc).1 ht⟩
  · rintro ⟨c, hc, ht⟩
    exact ⟨converted source c, (mem_preorder_converted h htop).2 ⟨c, hc, rfl⟩, (hat c hc).2 ht⟩

/-- The pollution rule reports of a source the lines, names and snippets that are read off the concrete
tree, and no others. There is a tree to scan exactly if a grammar rule stands for the root. -/
theorem value_source (source : Source) {root : Concrete} (h : Grammatical root)
    (properties : List String) :
    (build source root).isSome = shown root ∧ ∀ t : Line × String × String,
      (∃ program findings, build source root = some program ∧
        Scan.value [Pollution.rule properties] (.node program) = .ok findings ∧
        t ∈ findings.map fun f => (f.line, f.propertyName, f.snippet)) ↔
      t ∈ (reached root).filterMap (detected? source properties) := by
  rw [build_eq_result?, result?_eq_map, Option.isSome_map, isSome_inner? h]
  refine ⟨rfl, fun t => ?_⟩
  cases htop : inner? root with
  | none =>
    have hshown : shown root = false := by rw [← isSome_inner? h, htop]; rfl
    simp [reached_of_not_shown hshown]
  | some top =>
    rw [← mem_report_iff h htop]
    constructor
    · rintro ⟨program, findings, hprogram, hfindings, ht⟩
      obtain rfl := Option.some.inj hprogram
      obtain rfl := Except.ok.inj hfindings
      exact ht
    · exact fun ht => ⟨converted source top, _, rfl, rfl, ht⟩

/-- A source with a comment in parentheses. -/
def commented : Source := ⟨"(/**/a).__proto__ += 1".toList.toArray, .script⟩

/-- The concrete tree of that source. -/
def commentedTree : Concrete :=
  let label (kind : String) (field : Option String) (start stop : Nat) : Label :=
    { kind, named := true, extra := false, field, start := ⟨start, 0, 0, by omega⟩, stop }
  let token (text : String) (field : Option String) (start : Nat) : Concrete :=
    .node { label text field start (start + text.length) with named := false } []
  .node (label "program" none 0 22) [
    .node (label "expression_statement" none 0 22) [
      .node (label "augmented_assignment_expression" none 0 22) [
        .node (label "member_expression" (some "left") 0 17) [
          .node (label "parenthesized_expression" (some "object") 0 7) [
            token "(" none 0,
            .node { label "comment" none 1 5 with extra := true } [],
            .node (label "identifier" none 5 6) [],
            token ")" none 6],
          token "." none 7,
          .node (label "property_identifier" (some "property") 8 17) []],
        token "+=" (some "operator") 18,
        .node (label "number" (some "right") 21 22) []]]]

theorem value_source_commented :
    Grammatical commentedTree ∧ ∀ t : Line × String × String,
      (∃ program findings, build commented commentedTree = some program ∧
        Scan.value [Pollution.rule Pollution.defaultProperties] (.node program) = .ok findings ∧
        t ∈ findings.map fun f => (f.line, f.propertyName, f.snippet)) ↔
      t = (.known 1, "__proto__", "a.__proto__") := by
  have hgrammar : Grammatical commentedTree := by decide
  have hdetected : (reached commentedTree).filterMap (detected? commented Pollution.defaultProperties) =
      [(.known 1, "__proto__", "a.__proto__")] := by decide
  have hreport := (value_source commented hgrammar Pollution.defaultProperties).2
  rw [hdetected] at hreport
  exact ⟨hgrammar, fun t => (hreport t).trans List.mem_singleton⟩

end PrototypeScan.JavaScript.Estree
