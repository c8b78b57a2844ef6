import PrototypeScan.JavaScript.Estree
import PrototypeScan.Proofs.Tree.Fields

/-!
What a node has in a field, and which nodes are below it, once the children of its concrete node have been
added. Each child fills at most one field; a field is what its own children make of it, and no node is lost
as long as no token fills a field that nodes go to.
-/
namespace PrototypeScan.JavaScript.Estree
open Text Concrete

variable {source : Source} {unnamed : String}

/-- A node with one more child of its concrete node. -/
def add (source : Source) (unnamed : String) (n : Node) (c : Concrete) : Node :=
  match result? source c with
  | some child => n.pushChild (fieldFor n unnamed c.label.field) child
  | none =>
    if c.label.extra || c.label.named then n
    else match c.label.field with
      | some name => n.setField name (.string (c.text source.chars))
      | none => n

theorem filled_eq_foldl (n : Node) (cs : List Concrete) :
    filled source unnamed n cs = cs.foldl (add source unnamed) n := by
  induction cs generalizing n with
  | nil => rw [filled, List.foldl_nil]
  | cons c cs ih =>
    rw [filled, ih, List.foldl_cons]
    rfl

/-- The field that a child fills, if it gives anything. -/
def slot? (n : Node) (unnamed : String) (c : Concrete) : Option String :=
  if c.label.extra then none
  else if c.label.named then some (fieldFor n unnamed c.label.field)
  else c.label.field

/-- The value of a field after a child that fills it. -/
def valueWith (source : Source) (v : Value Node) (c : Concrete) : Value Node :=
  match result? source c with
  | some child => v.withChild child
  | none => if c.label.named then v else .string (c.text source.chars)

theorem shown_of_result? {c : Concrete} {m : Node} (h : result? source c = some m) :
    c.label.extra = false ∧ c.label.named = true := by
  obtain ⟨l, cs⟩ := c
  rw [result?] at h
  split at h
  · cases h
  · next hskip => simpa [label] using hskip

theorem result?_of_token {c : Concrete} (h : c.label.named = false) : result? source c = none := by
  cases hc : result? source c with
  | none => rfl
  | some m =>
    rw [(shown_of_result? hc).2] at h
    cases h

theorem result?_of_extra {c : Concrete} (h : c.label.extra = true) : result? source c = none := by
  cases hc : result? source c with
  | none => rfl
  | some m =>
    rw [(shown_of_result? hc).1] at h
    cases h

theorem add_of_extra {n : Node} {c : Concrete} (h : c.label.extra = true) : add source unnamed n c = n := by
  rw [add, result?_of_extra h, h, Bool.true_or]
  rfl

theorem fieldFor_congr {n n' : Node} (h : n.kind = n'.kind) (field : Option String) :
    fieldFor n unnamed field = fieldFor n' unnamed field := by
  unfold fieldFor
  split
  · rfl
  · rw [Node.is, Node.is, h]
  · rfl

theorem slot?_congr {n n' : Node} (h : n.kind = n'.kind) (c : Concrete) :
    slot? n unnamed c = slot? n' unnamed c := by
  rw [slot?, slot?, fieldFor_congr h]

theorem kind_add (n : Node) (c : Concrete) : (add source unnamed n c).kind = n.kind := by
  unfold add
  split
  · rfl
  · split
    · rfl
    · split <;> rfl

theorem location_add (n : Node) (c : Concrete) : (add source unnamed n c).location = n.location := by
  unfold add
  split
  · rfl
  · split
    · rfl
    · split <;> rfl

theorem field_add (n : Node) (c : Concrete) (name : String) :
    (add source unnamed n c).field name =
      if slot? n unnamed c = some name then valueWith source (n.field name) c else n.field name := by
  cases hc : result? source c with
  | some child =>
    obtain ⟨hextra, hnamed⟩ := shown_of_result? hc
    simp only [add, hc, Node.field_pushChild, slot?, hextra, hnamed, valueWith, if_true,
      Bool.false_eq_true, if_false, Option.some.injEq]
    split
    · next hname => rw [hname]
    · rfl
  | none =>
    by_cases hextra : c.label.extra = true
    · simp [add, hc, slot?, hextra]
    by_cases hnamed : c.label.named = true
    · simp [add, hc, hnamed, valueWith]
    · cases hfield : c.label.field with
      | none => simp [add, hc, slot?, hextra, hnamed, hfield]
      | some other =>
        by_cases hother : other = name
        · subst hother
          simp [add, hc, slot?, hextra, hnamed, hfield, valueWith,
            Node.field_setField_self n other (v := .string (c.text source.chars)) rfl]
        · simp [add, hc, slot?, hextra, hnamed, hfield, hother, Node.field_setField_of_ne n hother]

theorem kind_filled (n : Node) (cs : List Concrete) :
    (filled source unnamed n cs).kind = n.kind := by
  rw [filled_eq_foldl]
  induction cs generalizing n with
  | nil => rfl
  | cons c cs ih => rw [List.foldl_cons, ih, kind_add]

theorem location_filled (n : Node) (cs : List Concrete) :
    (filled source unnamed n cs).location = n.location := by
  rw [filled_eq_foldl]
  induction cs generalizing n with
  | nil => rfl
  | cons c cs ih => rw [List.foldl_cons, ih, location_add]

/-- A field is what the children that fill it make of it, in order. -/
theorem field_filled (n : Node) (cs : List Concrete) (name : String) :
    (filled source unnamed n cs).field name =
      (cs.filter (slot? n unnamed · = some name)).foldl (valueWith source) (n.field name) := by
  rw [filled_eq_foldl]
  induction cs generalizing n with
  | nil => rfl
  | cons c cs ih =>
    have hslots (d : Concrete) : slot? (add source unnamed n c) unnamed d = slot? n unnamed d :=
      slot?_congr (kind_add n c) d
    rw [List.foldl_cons, ih, field_add]
    by_cases hc : slot? n unnamed c = some name
    · simp only [hslots, hc, if_true, List.filter_cons, decide_true, List.foldl_cons]
    · simp only [hslots, hc, if_false, List.filter_cons, decide_false, Bool.false_eq_true]

theorem field_filled_of_unfilled {n : Node} {cs : List Concrete} {name : String}
    (h : ∀ c ∈ cs, slot? n unnamed c ≠ some name) :
    (filled source unnamed n cs).field name = n.field name := by
  rw [field_filled, List.filter_eq_nil_iff.2 (by simpa using h), List.foldl_nil]

/-- The node in a field that one child fills is what that child gives. -/
theorem child?_filled {n : Node} {cs : List Concrete} {name : String} {c : Concrete}
    (habsent : n.field name = .absent) (h : cs.filter (slot? n unnamed · = some name) = [c]) :
    (filled source unnamed n cs).child? name = result? source c := by
  rw [Node.child?, field_filled, h, List.foldl_cons, List.foldl_nil, habsent, valueWith]
  cases result? source c with
  | some child => rfl
  | none => cases c.label.named <;> rfl

/-! The nodes below. -/

theorem filterMap_cons_toList {α β : Type} (f : α → Option β) (a : α) (as : List α) :
    (a :: as).filterMap f = (f a).toList ++ as.filterMap f := by
  cases ha : f a <;> simp [ha]

theorem perm_children_add {n : Node} {c : Concrete}
    (h : c.label.named = false → ∀ name, slot? n unnamed c = some name → (n.field name).children = []) :
    (add source unnamed n c).children.Perm (n.children ++ (result? source c).toList) := by
  cases hc : result? source c with
  | some child =>
    rw [add, hc]
    exact Node.perm_children_pushChild _ _ _
  | none =>
    rw [Option.toList_none, List.append_nil]
    by_cases hskip : (c.label.extra || c.label.named) = true
    · simp [add, hc, hskip]
    · cases hfield : c.label.field with
      | none => simp [add, hc, hskip, hfield]
      | some name =>
        rw [Bool.or_eq_true, not_or] at hskip
        have hempty := h (by simpa using hskip.2) name (by simp [slot?, hskip, hfield])
        have hkept := Node.children_setField n (v := .string (c.text source.chars)) rfl hempty
        simp [add, hc, hskip, hfield, hkept]

-- No token that is still to come finds nodes in the field it fills: there are none at first, and a child
-- that adds one fills another field.
theorem perm_children_foldl_add {n : Node} {cs : List Concrete}
    (hslots : ∀ t ∈ cs, t.label.named = false → ∀ s ∈ cs, s.label.named = true →
      slot? n unnamed t = slot? n unnamed s → slot? n unnamed t = none)
    (hempty : ∀ t ∈ cs, t.label.named = false → ∀ name, slot? n unnamed t = some name →
      (n.field name).children = []) :
    (cs.foldl (add source unnamed) n).children.Perm (n.children ++ cs.filterMap (result? source)) := by
  induction cs generalizing n with
  | nil => simp
  | cons c cs ih =>
    have hkind : (add source unnamed n c).kind = n.kind := kind_add n c
    have hfirst : (add source unnamed n c).children.Perm (n.children ++ (result? source c).toList) :=
      perm_children_add (hempty c List.mem_cons_self)
    rw [List.foldl_cons, filterMap_cons_toList, ← List.append_assoc]
    refine (ih ?_ ?_).trans (hfirst.append_right _)
    · intro t ht htoken s hs hnamed
      rw [slot?_congr hkind, slot?_congr hkind]
      exact hslots t (List.mem_cons_of_mem _ ht) htoken s (List.mem_cons_of_mem _ hs) hnamed
    · intro t ht htoken name hname
      rw [slot?_congr hkind] at hname
      rw [field_add]
      split
      · next hfills =>
        have hc : c.label.named = false := by
          refine Bool.eq_false_iff.2 fun hnamed => ?_
          have hnone := hslots t (List.mem_cons_of_mem _ ht) htoken c List.mem_cons_self hnamed
            (hname.trans hfills.symm)
          rw [hname] at hnone
          cases hnone
        simp [valueWith, result?_of_token hc, hc, Value.children]
      · exact hempty t (List.mem_cons_of_mem _ ht) htoken name hname

/-- The nodes below are what the children give, each once, unless a token fills a field that a node goes to. -/
theorem perm_children_filled {n : Node} {cs : List Concrete} (hn : n.children = [])
    (hslots : ∀ t ∈ cs, t.label.named = false → ∀ s ∈ cs, s.label.named = true →
      slot? n unnamed t = slot? n unnamed s → slot? n unnamed t = none) :
    (filled source unnamed n cs).children.Perm (cs.filterMap (result? source)) := by
  have hempty : ∀ t ∈ cs, t.label.named = false → ∀ name, slot? n unnamed t = some name →
      (n.field name).children = [] := fun t _ _ name _ => Node.children_field_of_children hn name
  have hperm : (cs.foldl (add source unnamed) n).children.Perm (n.children ++ cs.filterMap (result? source)) :=
    perm_children_foldl_add hslots hempty
  rwa [hn, List.nil_append, ← filled_eq_foldl] at hperm

theorem mem_children_filled {n m : Node} {cs : List Concrete} (hn : n.children = [])
    (hslots : ∀ t ∈ cs, t.label.named = false → ∀ s ∈ cs, s.label.named = true →
      slot? n unnamed t = slot? n unnamed s → slot? n unnamed t = none) :
    m ∈ (filled source unnamed n cs).children ↔ ∃ s ∈ cs, result? source s = some m := by
  rw [(perm_children_filled hn hslots).mem_iff, List.mem_filterMap]

theorem mem_of_mem_children_add {n m : Node} {c : Concrete} (h : m ∈ (add source unnamed n c).children) :
    m ∈ n.children ∨ result? source c = some m := by
  unfold add at h
  split at h
  · next child hchild =>
    rw [Node.mem_children_pushChild] at h
    exact h.imp_right fun heq => by rw [heq, hchild]
  · split at h
    · exact .inl h
    · split at h
      · exact .inl ((Node.mem_of_mem_children_setField h).resolve_right List.not_mem_nil)
      · exact .inl h

/-- Every node below is what a child gives, whatever the tokens do. -/
theorem mem_of_mem_children_filled {n m : Node} {cs : List Concrete}
    (h : m ∈ (filled source unnamed n cs).children) :
    m ∈ n.children ∨ ∃ s ∈ cs, result? source s = some m := by
  rw [filled_eq_foldl] at h
  induction cs generalizing n with
  | nil => exact .inl h
  | cons c cs ih =>
    rw [List.foldl_cons] at h
    rcases ih h with h | ⟨s, hs, hm⟩
    · exact (mem_of_mem_children_add h).imp_right fun hm => ⟨c, List.mem_cons_self, hm⟩
    · exact .inr ⟨s, List.mem_cons_of_mem _ hs, hm⟩

end PrototypeScan.JavaScript.Estree
