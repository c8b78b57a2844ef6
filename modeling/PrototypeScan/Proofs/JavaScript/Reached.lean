import PrototypeScan.Proofs.JavaScript.Grammatical
import PrototypeScan.Proofs.Tree.Preorder

/-!
Which concrete nodes have a node in the tree for rules. In a grammatical tree these are the nodes that one
reaches from the root by way of grammar rules, without looking into identifiers and literals; parentheses
are passed, and nothing in them gets lost.
-/
namespace PrototypeScan.JavaScript.Estree
open Text Concrete

variable {source : Source}

mutual

/-- The concrete node behind any parentheses. -/
def inner? : Concrete → Option Concrete
  | .node l cs =>
    if !shown (.node l cs) then none
    else if l.kind = parenthesized then firstInner? cs
    else some (.node l cs)

def firstInner? : List Concrete → Option Concrete
  | [] => none
  | c :: cs => (inner? c).or (firstInner? cs)

end

mutual

/-- The concrete nodes that one reaches by way of grammar rules. Parentheses are passed, and what is in an
identifier or in a literal is not looked at. -/
def reached : Concrete → List Concrete
  | .node l cs =>
    if !shown (.node l cs) then []
    else if l.kind = parenthesized then listReached cs
    else if isLeaf l.kind then [.node l cs]
    else .node l cs :: listReached cs

def listReached : List Concrete → List Concrete
  | [] => []
  | c :: cs => reached c ++ listReached cs

end

/-- The node for a concrete node that is no parentheses. -/
def converted (source : Source) (c : Concrete) : Node :=
  let place := location source c.label.start
  if isLeaf c.label.kind then leaf c.label.kind (c.text source.chars) place
  else filled source (unnamedField c.label.kind) (opened source c.label.kind place) c.children

/-! The node behind parentheses. -/

theorem inner?_of_not_shown {c : Concrete} (h : shown c = false) : inner? c = none := by
  cases c with
  | node l cs => rw [inner?, h]; rfl

theorem inner?_eq_self {c : Concrete} (h : shown c = true) (hkind : c.label.kind ≠ parenthesized) :
    inner? c = some c := by
  cases c with
  | node l cs =>
    rw [label] at hkind
    rw [inner?, h, Bool.not_true, if_neg Bool.false_ne_true, if_neg hkind]

theorem inner?_parenthesized {l : Label} {cs : List Concrete} (h : shown (.node l cs) = true)
    (hkind : l.kind = parenthesized) : inner? (.node l cs) = firstInner? cs := by
  rw [inner?, h, Bool.not_true, if_neg Bool.false_ne_true, if_pos hkind]

theorem firstInner?_eq_some {cs : List Concrete} {d : Concrete} (h : firstInner? cs = some d) :
    ∃ c ∈ cs, inner? c = some d := by
  induction cs with
  | nil => cases h
  | cons c cs ih =>
    rw [firstInner?, Option.or_eq_some_iff] at h
    rcases h with h | ⟨-, h⟩
    · exact ⟨c, List.mem_cons_self, h⟩
    · obtain ⟨e, he, hd⟩ := ih h
      exact ⟨e, List.mem_cons_of_mem _ he, hd⟩

theorem firstInner?_filter_shown (cs : List Concrete) :
    firstInner? (cs.filter shown) = firstInner? cs := by
  induction cs with
  | nil => rfl
  | cons c cs ih =>
    rw [List.filter_cons, firstInner?, ← ih]
    cases hc : shown c with
    | true => rw [if_pos rfl, firstInner?]
    | false => rw [if_neg Bool.false_ne_true, inner?_of_not_shown hc, Option.none_or]

theorem skipped_eq (l : Label) (cs : List Concrete) :
    (l.extra || !l.named) = !shown (.node l cs) := by
  rw [shown, label, Bool.not_and, Bool.not_not, Bool.or_comm]

theorem result?_eq_map (source : Source) (c : Concrete) :
    result? source c = (inner? c).map (converted source) := by
  induction c using Concrete.induction with
  | node l cs ih =>
    -- Over any part of the children, so that this induction can use the one over the tree.
    have hfirst (ds : List Concrete) (hds : ∀ d ∈ ds, d ∈ cs) :
        firstResult? source ds = (firstInner? ds).map (converted source) := by
      induction ds with
      | nil => rfl
      | cons d ds ih' =>
        rw [firstResult?, firstInner?, Option.map_or, ih d (hds d List.mem_cons_self),
          ih' fun e he => hds e (List.mem_cons_of_mem _ he)]
        cases inner? d <;> rfl
    rw [result?, inner?, hfirst cs fun d hd => hd, skipped_eq l cs]
    split
    · rfl
    · split
      · rfl
      · rw [Option.map_some, converted, label, children]
        split <;> rfl

/-- The node behind the parentheses of a concrete tree stands for a grammar rule and is no parentheses. -/
theorem inner?_eq_some {c d : Concrete} (hc : Grammatical c) (h : inner? c = some d) :
    Grammatical d ∧ shown d = true ∧ d.label.kind ≠ parenthesized := by
  induction c using Concrete.induction with
  | node l cs ih =>
    cases hshown : shown (.node l cs) with
    | false => rw [inner?_of_not_shown hshown] at h; cases h
    | true =>
      by_cases hkind : l.kind = parenthesized
      · rw [inner?_parenthesized hshown hkind] at h
        obtain ⟨e, he, hd⟩ := firstInner?_eq_some h
        exact ih e he (hc.child he) hd
      · rw [inner?_eq_self hshown hkind] at h
        obtain rfl := Option.some.inj h
        exact ⟨hc, hshown, hkind⟩

/-! The concrete nodes that one reaches. -/

theorem reached_of_not_shown {c : Concrete} (h : shown c = false) : reached c = [] := by
  cases c with
  | node l cs => rw [reached, h]; rfl

theorem reached_parenthesized {l : Label} {cs : List Concrete} (h : shown (.node l cs) = true)
    (hkind : l.kind = parenthesized) : reached (.node l cs) = listReached cs := by
  rw [reached, h, Bool.not_true, if_neg Bool.false_ne_true, if_pos hkind]

theorem reached_of_leaf {l : Label} {cs : List Concrete} (h : shown (.node l cs) = true)
    (hkind : l.kind ≠ parenthesized) (hleaf : isLeaf l.kind = true) : reached (.node l cs) = [.node l cs] := by
  rw [reached, h, Bool.not_true, if_neg Bool.false_ne_true, if_neg hkind, if_pos hleaf]

theorem reached_of_element {l : Label} {cs : List Concrete} (h : shown (.node l cs) = true)
    (hkind : l.kind ≠ parenthesized) (hleaf : isLeaf l.kind = false) :
    reached (.node l cs) = .node l cs :: listReached cs := by
  rw [reached, h, Bool.not_true, if_neg Bool.false_ne_true, if_neg hkind, hleaf, if_neg Bool.false_ne_true]

theorem listReached_eq (cs : List Concrete) : listReached cs = cs.flatMap reached := by
  induction cs with
  | nil => rfl
  | cons c cs ih => rw [listReached, ih, List.flatMap_cons]

theorem listReached_filter_shown (cs : List Concrete) :
    listReached (cs.filter shown) = listReached cs := by
  induction cs with
  | nil => rfl
  | cons c cs ih =>
    rw [List.filter_cons, listReached, ← ih]
    cases hc : shown c with
    | true => rw [if_pos rfl, listReached]
    | false => rw [if_neg Bool.false_ne_true, reached_of_not_shown hc, List.nil_append]

theorem mem_listReached {cs : List Concrete} {d : Concrete} :
    d ∈ listReached cs ↔ ∃ c ∈ cs, d ∈ reached c := by
  rw [listReached_eq, List.mem_flatMap]

theorem of_mem_reached {c d : Concrete} (hc : Grammatical c) (h : d ∈ reached c) :
    Grammatical d ∧ shown d = true := by
  induction c using Concrete.induction with
  | node l cs ih =>
    have hbelow (hd : d ∈ listReached cs) : Grammatical d ∧ shown d = true := by
      obtain ⟨s, hs, hds⟩ := mem_listReached.1 hd
      exact ih s hs (hc.child hs) hds
    cases hshown : shown (.node l cs) with
    | false =>
      rw [reached_of_not_shown hshown] at h
      cases h
    | true =>
      rw [reached, hshown, Bool.not_true, if_neg Bool.false_ne_true] at h
      split at h
      · exact hbelow h
      · split at h
        · rw [List.mem_singleton] at h
          exact h ▸ ⟨hc, hshown⟩
        · rcases List.mem_cons.1 h with rfl | hd
          · exact ⟨hc, hshown⟩
          · exact hbelow hd

/-- Parentheses stand for the one child in them that a grammar rule stands for. -/
theorem exists_of_length_shown {l : Label} {cs : List Concrete} (h : (cs.filter shown).length = 1)
    (hshown : shown (.node l cs) = true) (hkind : l.kind = parenthesized) :
    ∃ c ∈ cs, shown c = true ∧ inner? (.node l cs) = inner? c ∧ reached (.node l cs) = reached c := by
  obtain ⟨c, hc⟩ := List.length_eq_one_iff.1 h
  have hmem : c ∈ cs.filter shown := by
    rw [hc]
    exact List.mem_singleton_self c
  obtain ⟨hcs, hcshown⟩ := List.mem_filter.1 hmem
  refine ⟨c, hcs, hcshown, ?_, ?_⟩
  · rw [inner?_parenthesized hshown hkind, ← firstInner?_filter_shown, hc, firstInner?, firstInner?,
      Option.or_none]
  · rw [reached_parenthesized hshown hkind, ← listReached_filter_shown, hc, listReached, listReached,
      List.append_nil]

theorem exists_of_parenthesized {l : Label} {cs : List Concrete} (h : Grammatical (.node l cs))
    (hshown : shown (.node l cs) = true) (hkind : l.kind = parenthesized) :
    ∃ c ∈ cs, shown c = true ∧ inner? (.node l cs) = inner? c ∧ reached (.node l cs) = reached c :=
  exists_of_length_shown ((h.regular hshown).parentheses hkind) hshown hkind

theorem isSome_inner? {c : Concrete} (h : Grammatical c) : (inner? c).isSome = shown c := by
  induction c using Concrete.induction with
  | node l cs ih =>
    cases hshown : shown (.node l cs) with
    | false => rw [inner?_of_not_shown hshown]; rfl
    | true =>
      by_cases hkind : l.kind = parenthesized
      · obtain ⟨c, hc, hcshown, hinner, -⟩ := exists_of_parenthesized h hshown hkind
        rw [hinner, ih c hc (h.child hc), hcshown]
      · rw [inner?_eq_self hshown hkind]; rfl

theorem inner?_of_mem_reached {c d : Concrete} (hc : Grammatical c) (h : d ∈ reached c) :
    ∃ e, inner? c = some e := by
  rw [← Option.isSome_iff_exists, isSome_inner? hc]
  cases hshown : shown c with
  | true => rfl
  | false =>
    rw [reached_of_not_shown hshown] at h
    cases h

/-! The nodes below. -/

theorem children_literalValue (kind text : String) : (literalValue kind text).children = [] := by
  unfold literalValue
  repeat' split
  · rfl
  · cases NumberLiteral.value? text <;> rfl
  all_goals rfl

theorem children_leaf (kind text : String) (l : Location) : (leaf kind text l).children = [] := by
  have hempty (k : String) : (Node.ofKind k).children = [] := rfl
  unfold leaf
  split
  · rw [Node.children_withLocation]
    exact Node.children_setField_of_children (hempty _) rfl
  · split <;> rw [Node.children_withLocation]
    · exact Node.children_setField_of_children (hempty _) rfl
    · refine Node.children_setField_of_children ?_ rfl
      exact Node.children_setField_of_children (hempty _) (children_literalValue kind text)

theorem children_converted_of_leaf (source : Source) {c : Concrete} (h : isLeaf c.label.kind = true) :
    (converted source c).children = [] := by
  rw [converted, h]
  exact children_leaf _ _ _

theorem kind_opened (source : Source) (kind : String) (l : Location) :
    (opened source kind l).kind = kindOf kind := by
  unfold opened
  repeat' split
  all_goals rfl

theorem slot?_opened (source : Source) (c : Concrete) (l : Location) (d : Concrete) :
    slot? (opened source c.label.kind l) (unnamedField c.label.kind) d = slotIn c d :=
  slot?_congr (kind_opened _ _ _) d

theorem children_opened (source : Source) (kind : String) (l : Location) :
    (opened source kind l).children = [] := by
  have hempty : ((Node.ofKind (kindOf kind)).withLocation l).children = [] := rfl
  unfold opened
  repeat' split
  · exact Node.children_setField_of_children hempty rfl
  · exact Node.children_setField_of_children hempty rfl
  · exact Node.children_setField_of_children hempty rfl
  · exact Node.children_setField_of_children hempty rfl
  · exact hempty

/-- A node that is no leaf has what its children give below it. -/
theorem mem_children_converted {c : Concrete} {m : Node} (h : Regular c)
    (hleaf : isLeaf c.label.kind = false) :
    m ∈ (converted source c).children ↔ ∃ d ∈ c.children, result? source d = some m := by
  rw [converted, hleaf, if_neg Bool.false_ne_true, mem_children_filled (children_opened _ _ _)]
  simpa only [slot?_opened] using h.token

/-- What holds for the trees of the children holds for all that is below a node that is no leaf. -/
theorem mem_below_iff {l : Label} {cs : List Concrete} {m : Node} (hc : Grammatical (.node l cs))
    (hshown : shown (.node l cs) = true) (hleaf : isLeaf l.kind = false)
    (h : ∀ s ∈ cs, ∀ t, inner? s = some t →
      (m ∈ (converted source t).preorder ↔ ∃ e ∈ reached s, converted source e = m)) :
    (∃ n ∈ (converted source (.node l cs)).children, m ∈ n.preorder) ↔
      ∃ e ∈ listReached cs, converted source e = m := by
  constructor
  · rintro ⟨n, hn, hm⟩
    obtain ⟨s, hs, hresult⟩ := (mem_children_converted (hc.regular hshown) hleaf).1 hn
    obtain ⟨t, ht, rfl⟩ := Option.map_eq_some_iff.1 (result?_eq_map source s ▸ hresult)
    obtain ⟨e, he, hem⟩ := (h s hs t ht).1 hm
    exact ⟨e, mem_listReached.2 ⟨s, hs, he⟩, hem⟩
  · rintro ⟨e, he, hem⟩
    obtain ⟨s, hs, hes⟩ := mem_listReached.1 he
    obtain ⟨t, ht⟩ := inner?_of_mem_reached (hc.child hs) hes
    refine ⟨converted source t, ?_, (h s hs t ht).2 ⟨e, hes, hem⟩⟩
    refine (mem_children_converted (hc.regular hshown) hleaf).2 ⟨s, hs, ?_⟩
    rw [result?_eq_map, ht, Option.map_some]

/-- The tree for what is behind parentheses has a node for each concrete node that one reaches. -/
theorem mem_preorder_converted {c d : Concrete} {m : Node} (hc : Grammatical c)
    (h : inner? c = some d) :
    m ∈ (converted source d).preorder ↔ ∃ e ∈ reached c, converted source e = m := by
  induction c using Concrete.induction generalizing d with
  | node l cs ih =>
    cases hshown : shown (.node l cs) with
    | false => rw [inner?_of_not_shown hshown] at h; cases h
    | true =>
      by_cases hkind : l.kind = parenthesized
      · obtain ⟨s, hs, -, hinner, hreached⟩ := exists_of_parenthesized hc hshown hkind
        rw [hreached]
        exact ih s hs (hc.child hs) (hinner ▸ h)
      · rw [inner?_eq_self hshown hkind] at h
        obtain rfl := Option.some.inj h
        rw [Node.preorder_eq, List.mem_cons, Node.mem_listPreorder, reached, hshown, Bool.not_true,
          if_neg Bool.false_ne_true, if_neg hkind]
        cases hleaf : isLeaf l.kind with
        | true =>
          simp [children_converted_of_leaf source (c := .node l cs) hleaf, eq_comm]
        | false =>
          rw [mem_below_iff hc hshown hleaf fun s hs t ht => ih s hs (hc.child hs) ht]
          simp [eq_comm]

end PrototypeScan.JavaScript.Estree
