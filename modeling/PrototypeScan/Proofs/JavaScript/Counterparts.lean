import Mathlib.Data.List.Perm.Basic
import PrototypeScan.Proofs.JavaScript.Ordered
import PrototypeScan.Proofs.JavaScript.Spelling

/-!
No node is lost in the conversion, and none comes twice. If parentheses hold one node each, and nodes go to no field
that has a text, then the tree for rules has one node for each concrete node that the conversion keeps; and if those
that go to one field stand side by side, a walk visits them in the order of the source.
-/
namespace PrototypeScan.JavaScript.Estree
open Text Concrete

variable {source : Source}

/-! The concrete nodes that are kept. -/

mutual

/-- The nodes of a concrete tree in the order of the source, parents first. Each comes with the labels of its
ancestors, that of the root first. -/
def occurrences : Concrete → List (List Label × Concrete)
  | .node l cs => ([], .node l cs) :: (listOccurrences cs).map fun o => (l :: o.1, o.2)

def listOccurrences : List Concrete → List (List Label × Concrete)
  | [] => []
  | c :: cs => occurrences c ++ listOccurrences cs

end

/-- Whether the conversion looks below a node with a label. -/
def isOpen (l : Label) : Bool := l.named && !l.extra && !isLeaf l.kind

/-- The concrete nodes that the conversion comes to: grammar rules stand for them and for all their ancestors, and no
ancestor is an identifier or a literal. -/
def entered (root : Concrete) : List Concrete :=
  ((occurrences root).filter fun o => shown o.2 && o.1.all isOpen).map (·.2)

def isParenthesized (c : Concrete) : Bool := c.label.kind = parenthesized

/-- The concrete nodes that the conversion comes to and that are no parentheses. -/
def kept (root : Concrete) : List Concrete := (entered root).filter (!isParenthesized ·)

theorem listOccurrences_eq (cs : List Concrete) : listOccurrences cs = cs.flatMap occurrences := by
  induction cs with
  | nil => rfl
  | cons c cs ih => rw [listOccurrences, ih, List.flatMap_cons]

theorem entered_node (l : Label) (cs : List Concrete) : entered (.node l cs) =
    (if shown (.node l cs) then [.node l cs] else []) ++ if isOpen l then cs.flatMap entered else [] := by
  have htest : ((fun o : List Label × Concrete => shown o.2 && o.1.all isOpen) ∘
      fun o : List Label × Concrete => (l :: o.1, o.2)) =
      fun o => isOpen l && (shown o.2 && o.1.all isOpen) := by
    funext o
    rw [Function.comp_apply, List.all_cons, Bool.and_left_comm]
  have hbelow : (((listOccurrences cs).map fun o => (l :: o.1, o.2)).filter
      fun o => shown o.2 && o.1.all isOpen).map (·.2) = if isOpen l then cs.flatMap entered else [] := by
    rw [List.filter_map, htest, List.map_map]
    cases isOpen l with
    | false => simp
    | true =>
      simp only [Bool.true_and, if_true]
      rw [listOccurrences_eq, List.filter_flatMap, List.map_flatMap]
      rfl
  rw [entered, occurrences, List.filter_cons, List.all_nil, Bool.and_true, ← hbelow]
  split <;> rfl

theorem isOpen_eq (l : Label) (cs : List Concrete) : isOpen l = (shown (.node l cs) && !isLeaf l.kind) := rfl

theorem entered_of_not_shown {l : Label} {cs : List Concrete} (h : shown (.node l cs) = false) :
    entered (.node l cs) = [] := by
  rw [entered_node, isOpen_eq l cs, h]
  rfl

theorem entered_of_leaf {l : Label} {cs : List Concrete} (h : shown (.node l cs) = true) (hleaf : isLeaf l.kind = true) :
    entered (.node l cs) = [.node l cs] := by
  rw [entered_node, isOpen_eq l cs, h, hleaf]
  rfl

theorem entered_of_open {l : Label} {cs : List Concrete} (h : shown (.node l cs) = true)
    (hleaf : isLeaf l.kind = false) : entered (.node l cs) = .node l cs :: cs.flatMap entered := by
  rw [entered_node, isOpen_eq l cs, h, hleaf]
  rfl

theorem mem_entered_self {c : Concrete} (h : shown c = true) : c ∈ entered c := by
  cases c with
  | node l cs =>
    rw [entered_node, if_pos h]
    exact List.mem_append_left _ (List.mem_singleton_self _)

theorem mem_entered_of_child {l : Label} {cs : List Concrete} (h : isOpen l = true) {c d : Concrete} (hc : c ∈ cs)
    (hd : d ∈ entered c) : d ∈ entered (.node l cs) := by
  rw [entered_node, if_pos h]
  exact List.mem_append_right _ (List.mem_flatMap.2 ⟨c, hc, hd⟩)

/-- What is kept is what one reaches by recursion. -/
theorem kept_eq_reached (c : Concrete) : kept c = reached c := by
  induction c using Concrete.induction with
  | node l cs ih =>
    have hbelow : (cs.flatMap entered).filter (!isParenthesized ·) = listReached cs := by
      rw [List.filter_flatMap, listReached_eq, List.flatMap_def, List.flatMap_def]
      exact congrArg List.flatten (List.map_congr_left ih)
    cases hshown : shown (.node l cs) with
    | false => rw [kept, entered_of_not_shown hshown, reached_of_not_shown hshown, List.filter_nil]
    | true =>
      by_cases hkind : l.kind = parenthesized
      · have hparentheses : isParenthesized (.node l cs) = true := decide_eq_true hkind
        have hleaf : isLeaf l.kind = false := hkind ▸ isLeaf_parenthesized
        rw [kept, entered_of_open hshown hleaf, List.filter_cons, hparentheses, Bool.not_true,
          if_neg Bool.false_ne_true, hbelow, reached_parenthesized hshown hkind]
      have hparentheses : isParenthesized (.node l cs) = false := decide_eq_false hkind
      cases hleaf : isLeaf l.kind with
      | true =>
        rw [kept, entered_of_leaf hshown hleaf, List.filter_cons, hparentheses, Bool.not_false, if_pos rfl,
          List.filter_nil, reached_of_leaf hshown hkind hleaf]
      | false =>
        rw [kept, entered_of_open hshown hleaf, List.filter_cons, hparentheses, Bool.not_false, if_pos rfl, hbelow,
          reached_of_element hshown hkind hleaf]

/-! What keeps the nodes of a tree apart. -/

/-- Whether a concrete node becomes one that its children are added to. -/
def isElement (c : Concrete) : Bool := !isLeaf c.label.kind && !isParenthesized c

/-- That nothing in a concrete node takes the place of something else in it. -/
structure Separate (c : Concrete) : Prop where
  parentheses : c.label.kind = parenthesized → (c.children.filter shown).length = 1
  /-- No node goes to a field that is set beforehand. -/
  presets : isElement c = true → ∀ d ∈ c.children, shown d = true → ∀ name ∈ presetFields, slotIn c d ≠ some name
  /-- No node goes to a field that a token stands under. -/
  tokens : isElement c = true → ∀ d ∈ c.children, shown d = true → ∀ t ∈ c.children, isToken t = true →
    t.label.field ≠ slotIn c d

instance (c : Concrete) : Decidable (Separate c) :=
  decidable_of_iff
    ((c.label.kind = parenthesized → (c.children.filter shown).length = 1) ∧
      (isElement c = true → ∀ d ∈ c.children, shown d = true → ∀ name ∈ presetFields, slotIn c d ≠ some name) ∧
      (isElement c = true → ∀ d ∈ c.children, shown d = true → ∀ t ∈ c.children, isToken t = true →
        t.label.field ≠ slotIn c d))
    ⟨fun ⟨h₁, h₂, h₃⟩ => ⟨h₁, h₂, h₃⟩, fun h => ⟨h.parentheses, h.presets, h.tokens⟩⟩

/-- That the children of a concrete node that go to one field stand side by side. -/
def InOrder (c : Concrete) : Prop :=
  isElement c = true → inRuns ((c.children.filter shown).filterMap (slotIn c)) = true

instance (c : Concrete) : Decidable (InOrder c) :=
  inferInstanceAs (Decidable (isElement c = true → inRuns ((c.children.filter shown).filterMap (slotIn c)) = true))

/-! The nodes below a node. -/

theorem keys_opened (source : Source) (kind : String) (l : Location) :
    ∀ name ∈ (opened source kind l).fields.map (·.1), name ∈ presetFields := by
  have hpreset (name : String) (hname : name ∈ presetFields) : ∀ other ∈ [name], other ∈ presetFields := by
    intro other hother
    rw [List.mem_singleton.1 hother]
    exact hname
  unfold opened
  repeat' split
  · exact hpreset "sourceType" (by decide)
  · exact hpreset "operator" (by decide)
  · exact hpreset "computed" (by decide)
  · exact hpreset "computed" (by decide)
  · exact fun name hname => absurd hname List.not_mem_nil

section Element

variable {c : Concrete} (helement : isElement c = true)
include helement

theorem converted_of_element : converted source c =
    filled source (unnamedField c.label.kind) (opened source c.label.kind (location source c.label.start)) c.children := by
  rw [isElement, Bool.and_eq_true, Bool.not_eq_true'] at helement
  rw [converted, helement.1, if_neg Bool.false_ne_true]

/-- The nodes below a node are those of the children, each once. -/
theorem perm_children_converted (h : Separate c) :
    (converted source c).children.Perm (c.children.filterMap (result? source)) := by
  rw [converted_of_element helement]
  refine perm_children_filled (children_opened _ _ _) ?_
  intro t ht htoken d hd hnamed hslots
  rw [slot?_opened, slot?_opened] at hslots
  rw [slot?_opened]
  cases hextra : t.label.extra with
  | true => simp [slotIn, slot?, hextra]
  | false =>
    cases hextra' : d.label.extra with
    | true =>
      rw [hslots]
      simp [slotIn, slot?, hextra']
    | false =>
      have hshown : shown d = true := shown_eq_true_iff.2 ⟨hnamed, hextra'⟩
      have hisToken : isToken t = true := isToken_eq_true_iff.2 ⟨htoken, hextra⟩
      rw [slotIn, slot?_of_isToken hisToken] at hslots
      exact absurd hslots (h.tokens helement d hd hshown t ht hisToken)

/-- If those that go to one field stand side by side, they come in order. -/
theorem children_converted (h : Separate c) (horder : InOrder c) :
    (converted source c).children = c.children.filterMap (result? source) := by
  let n := opened source c.label.kind (location source c.label.start)
  have hslots : slots n (unnamedField c.label.kind) c.children = (c.children.filter shown).filterMap (slotIn c) :=
    slots_congr (kind_opened _ _ _) c.children
  have hfield {name : String} (hname : name ∈ slots n (unnamedField c.label.kind) c.children) :
      ∃ d ∈ c.children, shown d = true ∧ slotIn c d = some name := by
    rw [hslots] at hname
    obtain ⟨d, hd, hslot⟩ := List.mem_filterMap.1 hname
    obtain ⟨hd, hshown⟩ := List.mem_filter.1 hd
    exact ⟨d, hd, hshown, hslot⟩
  have hkeeps : KeepsOrder n (unnamedField c.label.kind) none c.children := by
    refine ⟨?_, ?_, ?_, ?_⟩
    · rw [hslots]
      exact horder helement
    · intro name hname hpresent
      obtain ⟨d, hd, hshown, hslot⟩ := hfield hname
      exact absurd hslot (h.presets helement d hd hshown name (keys_opened _ _ _ name hpresent))
    · intro name hname
      cases hname
    · intro t ht htoken name hname
      refine ⟨fun hmem => ?_, Node.children_field_of_children (children_opened _ _ _) name⟩
      obtain ⟨d, hd, hshown, hslot⟩ := hfield hmem
      exact h.tokens helement d hd hshown t ht htoken (hname.trans hslot.symm)
  rw [converted_of_element helement, hkeeps.children_filled, children_opened, List.nil_append]

end Element

/-! The nodes of the whole tree. -/

/-- A relation of lists of nodes that holds for trees as soon as it holds for the children everywhere. -/
structure Combines (R : List Node → List Node → Prop) : Prop where
  refl : ∀ ns, R ns ns
  append : ∀ {ns ns' ms ms'}, R ns ns' → R ms ms' → R (ns ++ ms) (ns' ++ ms')
  trans : ∀ {ns ms ks}, R ns ms → R ms ks → R ns ks
  preorder : ∀ {ns ms}, R ns ms → R (Node.listPreorder ns) (Node.listPreorder ms)

theorem combines_eq : Combines Eq where
  refl _ := rfl
  append h h' := by rw [h, h']
  trans h h' := h.trans h'
  preorder h := by rw [h]

theorem combines_perm : Combines List.Perm where
  refl ns := .refl ns
  append h h' := h.append h'
  trans h h' := h.trans h'
  preorder h := by
    rw [Node.listPreorder_eq_flatMap, Node.listPreorder_eq_flatMap]
    exact h.flatMap_right _

/-- The nodes of the tree for a concrete one, if there is such a tree. -/
def nodes (n? : Option Node) : List Node := n?.toList.flatMap Node.preorder

theorem nodes_some (n : Node) : nodes (some n) = n :: Node.listPreorder n.children := by
  rw [nodes, Option.toList_some, List.flatMap_singleton, Node.preorder_eq]

theorem nodes_eq (n? : Option Node) : nodes n? = Node.listPreorder n?.toList := by
  rw [nodes, Node.listPreorder_eq_flatMap]

theorem listPreorder_filterMap {R : List Node → List Node → Prop} (hR : Combines R) {cs : List Concrete}
    (h : ∀ c ∈ cs, R (nodes (result? source c)) ((reached c).map (converted source))) :
    R (Node.listPreorder (cs.filterMap (result? source))) ((listReached cs).map (converted source)) := by
  induction cs with
  | nil => exact hR.refl _
  | cons c cs ih =>
    rw [List.forall_mem_cons] at h
    rw [filterMap_cons_toList, Node.listPreorder_append, listReached, List.map_append, ← nodes_eq]
    exact hR.append h.1 (ih h.2)

/-- The tree for a concrete one has a node for each concrete node that one reaches, as far as all nodes of it have
one for each of their children. -/
theorem nodes_result? {R : List Node → List Node → Prop} (hR : Combines R) {c : Concrete}
    (hparentheses : ∀ d ∈ entered c, d.label.kind = parenthesized → (d.children.filter shown).length = 1)
    (hchildren : ∀ d ∈ entered c, isElement d = true →
      R (converted source d).children (d.children.filterMap (result? source))) :
    R (nodes (result? source c)) ((reached c).map (converted source)) := by
  induction c using Concrete.induction with
  | node l cs ih =>
    cases hshown : shown (.node l cs) with
    | false =>
      rw [result?_eq_map, inner?_of_not_shown hshown, reached_of_not_shown hshown]
      exact hR.refl _
    | true =>
      have hself := mem_entered_self hshown
      have hbelow (hleaf : isLeaf l.kind = false) {s : Concrete} (hs : s ∈ cs) :
          R (nodes (result? source s)) ((reached s).map (converted source)) := by
        have hopen : isOpen l = true := by
          rw [isOpen_eq l cs, hshown, hleaf]
          rfl
        exact ih s hs (fun d hd => hparentheses d (mem_entered_of_child hopen hs hd))
          fun d hd => hchildren d (mem_entered_of_child hopen hs hd)
      by_cases hkind : l.kind = parenthesized
      · have hlength : (cs.filter shown).length = 1 := hparentheses _ hself hkind
        obtain ⟨s, hs, -, hinner, hreached⟩ := exists_of_length_shown hlength hshown hkind
        rw [result?_eq_map, hinner, ← result?_eq_map, hreached]
        exact hbelow (hkind ▸ isLeaf_parenthesized) hs
      rw [result?_eq_map, inner?_eq_self hshown hkind, Option.map_some, nodes_some]
      cases hleaf : isLeaf l.kind with
      | true =>
        rw [children_converted_of_leaf source (c := .node l cs) hleaf, reached_of_leaf hshown hkind hleaf]
        exact hR.refl _
      | false =>
        have helement : isElement (.node l cs) = true := by
          simp [isElement, isParenthesized, label, hleaf, hkind]
        have htrees := hR.trans (hR.preorder (hchildren _ hself helement))
          (listPreorder_filterMap hR fun s hs => hbelow hleaf hs)
        rw [reached_of_element hshown hkind hleaf]
        exact hR.append (hR.refl [converted source (.node l cs)]) htrees

/-- That a node is what becomes of a concrete node. -/
structure StandsFor (source : Source) (n : Node) (c : Concrete) : Prop where
  kind : n.kind = if isLeaf c.label.kind then leafKind c.label.kind else kindOf c.label.kind
  location : n.location = some (location source c.label.start)

theorem standsFor_converted (source : Source) (c : Concrete) : StandsFor source (converted source c) c :=
  ⟨kind_converted source c, location_converted source c⟩

theorem forall₂_standsFor (source : Source) (cs : List Concrete) :
    List.Forall₂ (StandsFor source) (cs.map (converted source)) cs := by
  induction cs with
  | nil => exact .nil
  | cons c cs ih => exact .cons (standsFor_converted source c) ih

/-- What a walk over the tree visits, if there is one. -/
def visited (n? : Option Node) : List Node := n?.toList.flatMap fun n => (Walk.start n).visited

theorem visited_eq (n? : Option Node) : visited n? = nodes n? := by
  rw [visited, nodes]
  simp only [Walk.visited_start]

/-- The nodes of the tree stand for the concrete nodes that are kept, one for each. If in every node those that go to
one field stand side by side, then a walk visits them in the order of the source. -/
theorem nodes_of_build (source : Source) {root : Concrete} (h : ∀ c ∈ entered root, Separate c) :
    (∃ cs, cs.Perm (kept root) ∧ List.Forall₂ (StandsFor source) (nodes (build source root)) cs) ∧
      ((∀ c ∈ entered root, InOrder c) →
        List.Forall₂ (StandsFor source) (visited (build source root)) (kept root)) := by
  have hparentheses : ∀ c ∈ entered root, c.label.kind = parenthesized → (c.children.filter shown).length = 1 :=
    fun c hc => (h c hc).parentheses
  rw [visited_eq, build_eq_result?, kept_eq_reached]
  constructor
  · have hperm : (nodes (result? source root)).Perm ((reached root).map (converted source)) :=
      nodes_result? combines_perm hparentheses fun c hc helement => perm_children_converted helement (h c hc)
    obtain ⟨cs, hstands, hcs⟩ := List.perm_comp_forall₂ hperm (forall₂_standsFor source (reached root))
    exact ⟨cs, hcs, hstands⟩
  · intro horder
    have hnodes : nodes (result? source root) = (reached root).map (converted source) :=
      nodes_result? combines_eq hparentheses fun c hc helement =>
        children_converted helement (h c hc) (horder c hc)
    rw [hnodes]
    exact forall₂_standsFor source (reached root)

theorem nodes_of_build_commented :
    (∀ c ∈ entered commentedTree, Separate c ∧ InOrder c) ∧
      (kept commentedTree).map (·.label.kind) = ["program", "expression_statement", "augmented_assignment_expression",
        "member_expression", "identifier", "property_identifier", "number"] ∧
      List.Forall₂ (StandsFor commented) (visited (build commented commentedTree)) (kept commentedTree) := by
  have h : ∀ c ∈ entered commentedTree, Separate c ∧ InOrder c := by decide
  have hkinds : (kept commentedTree).map (·.label.kind) = ["program", "expression_statement",
      "augmented_assignment_expression", "member_expression", "identifier", "property_identifier", "number"] := by decide
  exact ⟨h, hkinds, (nodes_of_build commented fun c hc => (h c hc).1).2 fun c hc => (h c hc).2⟩

/-! What else there may be in a source. -/

/-- A token that comes behind all nodes that go to its field leaves its text there, in place of them. -/
theorem field_converted_of_token {c t : Concrete} {before after : List Concrete} {name : String}
    (helement : isElement c = true) (hchildren : c.children = before ++ t :: after) (ht : isToken t = true)
    (hfield : t.label.field = some name) (hafter : ∀ d ∈ after, slotIn c d ≠ some name) :
    (converted source c).field name = .string (t.text source.chars) := by
  have hslot : slotIn c t = some name := (slot?_of_isToken ht).trans hfield
  have hnone : after.filter (slotIn c · = some name) = [] := List.filter_eq_nil_iff.2 (by simpa using hafter)
  have hnamed : t.label.named = false := (isToken_eq_true_iff.1 ht).1
  rw [converted_of_element helement, field_filled]
  simp only [slot?_opened]
  rw [hchildren, List.filter_append, List.filter_cons, if_pos (decide_eq_true hslot), hnone, List.foldl_append,
    List.foldl_cons, List.foldl_nil, valueWith, result?_of_isToken ht, hnamed]
  rfl

def conditional : Source := ⟨"for(;a;)b".toList.toArray, .script⟩

/-- The grammar puts the condition of a loop and the semicolon behind it under one field. -/
def conditionalTree : Concrete :=
  spanned "for_statement" none 0 9 [
    token "for" none 0,
    token "(" none 3,
    spanned "empty_statement" (some "initializer") 4 5 [token ";" none 4],
    spanned "identifier" (some "condition") 5 6 [],
    token ";" (some "condition") 6,
    token ")" none 7,
    spanned "expression_statement" (some "body") 8 9 [spanned "identifier" none 8 9 []]]

example : ((converted conditional conditionalTree).field "condition").asString? = some ";" ∧
    (nodes (result? conditional conditionalTree)).length + 1 = (kept conditionalTree).length := by decide

end PrototypeScan.JavaScript.Estree
