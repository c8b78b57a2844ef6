import PrototypeScan.JavaScript.Estree
import PrototypeScan.Proofs.Grammar.Points
import PrototypeScan.Proofs.JavaScript.Spelling

/-!
Where the nodes of the tree for a source are. The lines that count are those that end at a line feed, so a
place is the one that other producers of such trees report exactly if no line ends otherwise in front of it.
-/
namespace PrototypeScan

namespace JavaScript.Estree
open Text Concrete

variable {source : Source} {root : Concrete} {program : Node}

/-- The place of an offset by the lines before it. -/
def placeBy (ends : Nat → Bool) (chars : Array Char) (offset : Nat) : Location :=
  ⟨clamp32 (linesBefore ends offset + 1), clamp32 (unitsBetween chars (lineStart ends offset) offset)⟩

theorem location_eq_placeBy {p : Point} (h : p.Exact source.chars) :
    location source p = placeBy (isLineFeed source.chars) source.chars p.offset := by
  rw [location, locationOf, placeBy, h.row_eq, h.lineStart_eq]

theorem clamp32_inj {m n : Nat} (hm : m ≤ 0xFFFFFFFF) (hn : n ≤ 0xFFFFFFFF) (h : clamp32 m = clamp32 n) :
    m = n := by
  have hlt (k : Nat) : min k 0xFFFFFFFF < UInt32.size := Nat.lt_of_le_of_lt (Nat.min_le_right _ _) (by decide)
  have htoNat : (clamp32 m).toNat = (clamp32 n).toNat := by rw [h]
  rw [clamp32, clamp32, UInt32.toNat_ofNat_of_lt' (hlt m), UInt32.toNat_ofNat_of_lt' (hlt n)] at htoNat
  omega

/-- The place by line feeds is the place by all lines where these are all lines, and only there. -/
theorem placeBy_eq_iff {chars : Array Char} {offset : Nat} (hoffset : offset < 0xFFFFFFFF) :
    placeBy (isLineFeed chars) chars offset = placeBy (endsLine chars) chars offset ↔
      ∀ i < offset, endsLineOtherwise chars i = false := by
  have hlines := linesBefore_endsLine chars offset
  constructor
  · intro h
    have hfeeds := linesBefore_le (isLineFeed chars) offset
    have hall := linesBefore_le (endsLine chars) offset
    have heq := clamp32_inj (by omega) (by omega) (congrArg Location.line h)
    rw [← linesBefore_eq_zero_iff]
    omega
  · intro h
    have hother := linesBefore_eq_zero_iff.2 h
    rw [placeBy, placeBy, lineStart_endsLine h, hlines, hother, Nat.add_zero]

/-! Each node of the tree is that of a concrete node. -/

theorem exists_of_mem_children_converted {c : Concrete} {m : Node} (h : m ∈ (converted source c).children) :
    ∃ s ∈ c.children, result? source s = some m := by
  unfold converted at h
  split at h
  · rw [children_leaf] at h
    exact absurd h List.not_mem_nil
  · refine (mem_of_mem_children_filled h).resolve_left fun hm => ?_
    rw [children_opened] at hm
    exact absurd hm List.not_mem_nil

/-- The nodes of what a concrete tree gives are those for concrete nodes in it that are no parentheses. -/
theorem exists_of_mem_preorder {c : Concrete} {top n : Node} (htop : result? source c = some top)
    (hn : n ∈ top.preorder) : ∃ d ∈ c.subtrees, inner? d = some d ∧ converted source d = n := by
  induction c using Concrete.induction generalizing top with
  | node l cs ih =>
    cases hshown : shown (.node l cs) with
    | false =>
      rw [result?_eq_map, inner?_of_not_shown hshown] at htop
      cases htop
    | true =>
      by_cases hkind : l.kind = parenthesized
      · rw [result?_eq_map, inner?_parenthesized hshown hkind, Option.map_eq_some_iff] at htop
        obtain ⟨d, hd, htop⟩ := htop
        obtain ⟨s, hs, hinner⟩ := firstInner?_eq_some hd
        have hresult : result? source s = some top := by rw [result?_eq_map, hinner, Option.map_some, htop]
        obtain ⟨e, he, hen⟩ := ih s hs hresult hn
        exact ⟨e, mem_subtrees_of_child hs he, hen⟩
      · have hself := inner?_eq_self hshown hkind
        rw [result?_eq_map, hself, Option.map_some] at htop
        obtain rfl := Option.some.inj htop
        rw [Node.preorder_eq, List.mem_cons, Node.mem_listPreorder] at hn
        rcases hn with rfl | ⟨m, hm, hn⟩
        · exact ⟨_, mem_subtrees_self _, hself, rfl⟩
        · obtain ⟨s, hs, hresult⟩ := exists_of_mem_children_converted hm
          obtain ⟨e, he, hen⟩ := ih s hs hresult hn
          exact ⟨e, mem_subtrees_of_child hs he, hen⟩

/-! Findings are where their properties are. -/

theorem exists_property_of_mem_findings {properties : List String} {findings : List Finding}
    (h : Scan.value [Pollution.rule properties] (.node program) = .ok findings) {f : Finding}
    (hf : f ∈ findings) : ∃ n ∈ program.preorder, ∃ member property,
      Pollution.assignedMember? n = some member ∧ member.child? "property" = some property ∧
      property ∈ program.preorder ∧ f.line = .ofOption (property.location.map (·.line)) ∧
      f.column = property.location.map (·.column) := by
  obtain rfl := Except.ok.inj h
  rw [Scan.tree_eq_collected] at hf
  obtain ⟨n, hn, hf⟩ := List.mem_flatMap.1 (Finding.mem_of_mem_collected hf)
  rw [Pollution.findingsAt_rule, Option.mem_toList, Option.bind_eq_some_iff] at hf
  obtain ⟨member, hmember, hf⟩ := hf
  obtain ⟨property, hproperty, hf⟩ := Option.bind_eq_some_iff.1 hf
  obtain ⟨name, -, rfl⟩ := Option.map_eq_some_iff.1 hf
  have hleft : n.child? "left" = some member := by
    rw [Pollution.assignedMember?] at hmember
    split at hmember
    · exact (Option.filter_eq_some_iff.1 hmember).1
    · cases hmember
  have hinside := Node.mem_preorder_of_mem_children hn (Node.mem_children_of_child? hleft)
  have hbelow := Node.mem_preorder_of_mem_children hinside (Node.mem_children_of_child? hproperty)
  exact ⟨n, hn, member, property, hmember, hproperty, hbelow, rfl, rfl⟩

/-! The places of nodes and findings. -/

/-- That a place is that of an offset by line feeds, which is the one by all lines exactly if no line ends
otherwise in front of the offset. -/
structure PlacedAt (chars : Array Char) (offset : Nat) (place : Location) : Prop where
  eq_byLineFeeds : place = placeBy (isLineFeed chars) chars offset
  eq_byLines_iff : place = placeBy (endsLine chars) chars offset ↔
    ∀ i < offset, endsLineOtherwise chars i = false

theorem placedAt_location {p : Point} (hsize : source.chars.size < 0xFFFFFFFF) (h : p.Exact source.chars) :
    PlacedAt source.chars p.offset (location source p) := by
  have hoffset : p.offset < 0xFFFFFFFF := Nat.lt_of_le_of_lt h.offset_le hsize
  rw [location_eq_placeBy h]
  exact ⟨rfl, placeBy_eq_iff hoffset⟩

/-- That a node of the tree for a source is that of a concrete node and placed where that starts. -/
def NodePlaced (source : Source) (root : Concrete) (n : Node) : Prop :=
  ∃ c ∈ root.subtrees, inner? c = some c ∧ converted source c = n ∧
    ∃ place, n.location = some place ∧ PlacedAt source.chars c.label.start.offset place

/-- That a finding is placed where the property starts that a node of the tree for a source assigns to. -/
def FindingPlaced (source : Source) (root : Concrete) (program : Node) (f : Finding) : Prop :=
  ∃ n ∈ program.preorder, ∃ member, Pollution.assignedMember? n = some member ∧
    ∃ c ∈ root.subtrees, member.child? "property" = some (converted source c) ∧
      ∃ place, f.line = .known place.line ∧ f.column = some place.column ∧
        PlacedAt source.chars c.label.start.offset place

section

variable (hsize : source.chars.size < 0xFFFFFFFF) (hroot : root.Placed source.chars)
  (hprogram : build source root = some program)
include hsize hroot hprogram

theorem nodePlaced_of_mem_preorder {n : Node} (hn : n ∈ program.preorder) : NodePlaced source root n := by
  rw [build_eq_result?] at hprogram
  obtain ⟨c, hc, hinner, rfl⟩ := exists_of_mem_preorder hprogram hn
  exact ⟨c, hc, hinner, rfl, _, location_converted source c, placedAt_location hsize (hroot c hc)⟩

theorem findingPlaced_of_mem_findings {properties : List String} {findings : List Finding}
    (h : Scan.value [Pollution.rule properties] (.node program) = .ok findings) {f : Finding}
    (hf : f ∈ findings) : FindingPlaced source root program f := by
  rw [build_eq_result?] at hprogram
  obtain ⟨n, hn, member, property, hmember, hproperty, hbelow, hline, hcolumn⟩ :=
    exists_property_of_mem_findings h hf
  obtain ⟨c, hc, -, rfl⟩ := exists_of_mem_preorder hprogram hbelow
  rw [location_converted] at hline hcolumn
  exact ⟨n, hn, member, hmember, c, hc, hproperty, _, hline, hcolumn, placedAt_location hsize (hroot c hc)⟩

/-- Every node of the tree for a source, and every finding in it by way of its property, has the place that
its concrete node has by line feeds; that is the place by the lines of a script exactly if in front of it these
end at line feeds only. -/
theorem places_of_build :
    (∀ n ∈ program.preorder, NodePlaced source root n) ∧
      ∀ properties findings, Scan.value [Pollution.rule properties] (.node program) = .ok findings →
        ∀ f ∈ findings, FindingPlaced source root program f :=
  ⟨fun _ hn => nodePlaced_of_mem_preorder hsize hroot hprogram hn,
    fun _ _ h _ hf => findingPlaced_of_mem_findings hsize hroot hprogram h hf⟩

end

/-- The same of what is parsed from a text, where nothing is assumed of the points. -/
theorem places_of_program? {sourceType : SourceType} {text : String} (hsize : text.length < 0xFFFFFFFF)
    (hprogram : program? sourceType text = some program) : ∃ root, parse? text = some root ∧
      (∀ n ∈ program.preorder, NodePlaced ⟨text.toList.toArray, sourceType⟩ root n) ∧
      ∀ properties findings, Scan.value [Pollution.rule properties] (.node program) = .ok findings →
        ∀ f ∈ findings, FindingPlaced ⟨text.toList.toArray, sourceType⟩ root program f := by
  obtain ⟨root, hparse, hbuild⟩ := Option.bind_eq_some_iff.1 hprogram
  have hsize : text.toList.toArray.size < 0xFFFFFFFF := by
    rwa [List.size_toArray, String.length_toList]
  refine ⟨root, hparse, fun n hn => ?_, fun properties findings h f hf => ?_⟩
  · exact nodePlaced_of_mem_preorder hsize (placed_parse? hparse) hbuild hn
  · exact findingPlaced_of_mem_findings hsize (placed_parse? hparse) hbuild h hf

/-- An assignment to `__proto__` with a carriage return in front of the name. -/
def returned : Source := ⟨"o.\r__proto__ = v".toList.toArray, .script⟩

def returnedProperty : Concrete := spanned "property_identifier" (some "property") 3 12 []

def returnedTree : Concrete :=
  assigningTree (spanned "member_expression" (some "left") 0 12 [
    spanned "identifier" (some "object") 0 1 [], token "." none 1, returnedProperty])

theorem placed_returnedTree : returnedTree.Placed returned.chars := by
  unfold Concrete.Placed
  decide

theorem build_returned : build returned returnedTree = some (converted returned returnedTree) := build_eq_some rfl

theorem places_of_build_returned :
    ∃ program findings, build returned returnedTree = some program ∧
      Scan.value [Pollution.rule Pollution.defaultProperties] (.node program) = .ok findings ∧
      (∀ n ∈ program.preorder, NodePlaced returned returnedTree n) ∧
      ∀ f ∈ findings, FindingPlaced returned returnedTree program f := by
  obtain ⟨hnodes, hfindings⟩ := places_of_build (by decide) placed_returnedTree build_returned
  exact ⟨_, _, build_returned, rfl, hnodes, hfindings _ _ rfl⟩

/-- The name is at the start of the second line, and reported in the first one. -/
theorem place_returnedProperty :
    returnedTree.Placed returned.chars ∧ returnedProperty ∈ returnedTree.subtrees ∧
      placeBy (endsLine returned.chars) returned.chars returnedProperty.label.start.offset = ⟨2, 0⟩ ∧
      ∃ program, build returned returnedTree = some program ∧
        converted returned returnedProperty ∈ program.preorder ∧
        (converted returned returnedProperty).location = some ⟨1, 3⟩ ∧
        ∃ findings, Scan.value [Pollution.rule Pollution.defaultProperties] (.node program) = .ok findings ∧
          findings.map (fun f => (f.line, f.column)) = [(.known 1, some 3)] := by
  have hsubtree : returnedProperty ∈ returnedTree.subtrees := List.mem_of_getElem? (i := 6) rfl
  have hnode : converted returned returnedProperty ∈ (converted returned returnedTree).preorder :=
    List.mem_of_getElem? (i := 5) rfl
  refine ⟨placed_returnedTree, hsubtree, by decide, _, build_returned, hnode, ?_, _, rfl, ?_⟩
  · rw [location_converted]
    decide
  · rw [Scan.tree_eq_collected]
    decide

end JavaScript.Estree

end PrototypeScan
