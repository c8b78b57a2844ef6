import PrototypeScan.Tree.Basic

/-!
What a change of one field does to the others. A field that is not there yet is added at the end, so a node
that is given fields with different names has just these, in the order given.
-/
namespace PrototypeScan

namespace Fields

variable {β : Type} {name : String} {fs : List (String × β)}

theorem get?_of_not_mem (h : name ∉ fs.map (·.1)) : get? name fs = none := by
  induction fs with
  | nil => rfl
  | cons f fs ih =>
    rw [List.map_cons, List.mem_cons, not_or] at h
    rw [get?, if_neg (Ne.symm h.1), ih h.2]

theorem get?_append (gs : List (String × β)) :
    get? name (fs ++ gs) = (get? name fs).or (get? name gs) := by
  induction fs with
  | nil => rfl
  | cons f fs ih =>
    rw [List.cons_append, get?, get?]
    split
    · rfl
    · exact ih

theorem get?_upsert (name other : String) (change : Option β → β) (fs : List (String × β)) :
    get? other (upsert name change fs) =
      if name = other then some (change (get? name fs)) else get? other fs := by
  induction fs with
  | nil => by_cases h : name = other <;> simp [upsert, get?, h]
  | cons f fs ih =>
    obtain ⟨n, v⟩ := f
    by_cases hn : n = name
    · subst hn
      by_cases h : n = other <;> simp [upsert, get?, h]
    · by_cases h : name = other
      · subst h
        simpa [upsert, get?, hn] using ih
      · by_cases hno : n = other
        · simp [upsert, get?, h, hno, Ne.symm h]
        · simpa [upsert, get?, hn, h, hno] using ih

theorem get?_erase_of_ne {other : String} (h : name ≠ other) (fs : List (String × β)) :
    get? other (erase name fs) = get? other fs := by
  induction fs with
  | nil => rfl
  | cons f fs ih =>
    obtain ⟨n, v⟩ := f
    by_cases hn : n = name
    · subst hn
      simp [erase, get?, h]
    · by_cases hno : n = other
      · simp [erase, get?, hno, Ne.symm h]
      · simpa [erase, get?, hn, hno] using ih

theorem upsert_of_not_mem (change : Option β → β) (h : name ∉ fs.map (·.1)) :
    upsert name change fs = fs ++ [(name, change none)] := by
  induction fs with
  | nil => rfl
  | cons f fs ih =>
    rw [List.map_cons, List.mem_cons, not_or] at h
    rw [upsert, if_neg (Ne.symm h.1), ih h.2, List.cons_append]

theorem keys_upsert (name : String) (change : Option β → β) (fs : List (String × β)) :
    (upsert name change fs).map (·.1) =
      if name ∈ fs.map (·.1) then fs.map (·.1) else fs.map (·.1) ++ [name] := by
  induction fs with
  | nil => rfl
  | cons f fs ih =>
    rw [upsert]
    by_cases hf : f.1 = name
    · simp [hf]
    · simp only [if_neg hf, List.map_cons, ih, List.mem_cons, or_iff_right (Ne.symm hf)]
      split <;> rfl

theorem mem_keys_of_mem_upsert {other : String} {change : Option β → β} (hne : other ≠ name)
    (h : other ∈ (upsert name change fs).map (·.1)) : other ∈ fs.map (·.1) := by
  rw [keys_upsert] at h
  split at h
  · exact h
  · rw [List.mem_append, List.mem_singleton] at h
    exact h.resolve_right hne

theorem upsert_ne_nil (name : String) (change : Option β → β) (fs : List (String × β)) :
    upsert name change fs ≠ [] := by
  cases fs with
  | nil => exact List.cons_ne_nil _ _
  | cons f fs =>
    rw [upsert]
    split <;> exact List.cons_ne_nil _ _

theorem upsert_const (name : String) (change : Option β → β) (fs : List (String × β)) :
    upsert name (fun _ => change (get? name fs)) fs = upsert name change fs := by
  induction fs with
  | nil => rfl
  | cons f fs ih =>
    rw [upsert, upsert, get?]
    split
    · rfl
    · rw [ih]

theorem mem_of_get? {v : β} (h : get? name fs = some v) : (name, v) ∈ fs := by
  induction fs with
  | nil => cases h
  | cons f fs ih =>
    rw [get?] at h
    split at h
    · next hname =>
      obtain rfl := Option.some.inj h
      rw [← hname]
      exact List.mem_cons_self
    · exact List.mem_cons_of_mem _ (ih h)

theorem get?_eq_some_iff (h : (fs.map (·.1)).Nodup) {v : β} : get? name fs = some v ↔ (name, v) ∈ fs := by
  refine ⟨mem_of_get?, fun hmem => ?_⟩
  induction fs with
  | nil => cases hmem
  | cons f fs ih =>
    rw [List.map_cons, List.nodup_cons] at h
    rw [get?]
    rcases List.mem_cons.1 hmem with rfl | hmem
    · exact if_pos rfl
    · have hne : f.1 ≠ name := by
        intro hname
        apply h.1
        rw [hname]
        exact List.mem_map_of_mem (f := (·.1)) hmem
      rw [if_neg hne, ih h.2 hmem]

theorem keys_erase (name : String) (fs : List (String × β)) :
    (erase name fs).map (·.1) = (fs.map (·.1)).erase name := by
  induction fs with
  | nil => rfl
  | cons f fs ih =>
    rw [erase, List.map_cons, List.erase_cons]
    by_cases hf : f.1 = name
    · simp [hf]
    · simp [hf, ih]

theorem erase_of_not_mem (h : name ∉ fs.map (·.1)) : erase name fs = fs := by
  induction fs with
  | nil => rfl
  | cons f fs ih =>
    rw [List.map_cons, List.mem_cons, not_or] at h
    rw [erase, if_neg (Ne.symm h.1), ih h.2]

theorem mem_of_mem_erase {f : String × β} (h : f ∈ erase name fs) : f ∈ fs := by
  induction fs with
  | nil => exact h
  | cons g fs ih =>
    rw [erase] at h
    split at h
    · exact List.mem_cons_of_mem _ h
    · rw [List.mem_cons] at h ⊢
      exact h.imp_right ih

theorem mem_of_mem_upsert {v : β} {f : String × β} (h : f ∈ upsert name (fun _ => v) fs) :
    f ∈ fs ∨ f = (name, v) := by
  induction fs with
  | nil => exact .inr (List.mem_singleton.1 h)
  | cons g fs ih =>
    rw [upsert] at h
    split at h
    · next hname =>
      rcases List.mem_cons.1 h with rfl | h
      · exact .inr (by rw [hname])
      · exact .inl (List.mem_cons_of_mem _ h)
    · rcases List.mem_cons.1 h with rfl | h
      · exact .inl List.mem_cons_self
      · exact (ih h).imp_left (List.mem_cons_of_mem _)

/-! The entries with some names. -/

section Filter

variable (keep : String → Bool)

theorem filter_upsert (name : String) (change : Option β → β) (fs : List (String × β)) :
    (upsert name change fs).filter (keep ·.1) =
      if keep name then upsert name change (fs.filter (keep ·.1)) else fs.filter (keep ·.1) := by
  induction fs with
  | nil => by_cases h : keep name <;> simp [upsert, h]
  | cons f fs ih =>
    rw [upsert, List.filter_cons]
    by_cases hf : f.1 = name
    · subst hf
      rw [if_pos rfl, List.filter_cons]
      cases keep f.1 <;> simp [upsert]
    · rw [if_neg hf, List.filter_cons, ih]
      cases keep name <;> cases keep f.1 <;> simp [upsert, hf]

theorem filter_erase (name : String) (fs : List (String × β)) :
    (erase name fs).filter (keep ·.1) =
      if keep name then erase name (fs.filter (keep ·.1)) else fs.filter (keep ·.1) := by
  induction fs with
  | nil => exact (ite_self _).symm
  | cons f fs ih =>
    rw [erase, List.filter_cons]
    by_cases hf : f.1 = name
    · subst hf
      rw [if_pos rfl]
      cases keep f.1 <;> simp [erase]
    · rw [if_neg hf, List.filter_cons, ih]
      cases keep name <;> cases keep f.1 <;> simp [erase, hf]

end Filter

end Fields

namespace Node

theorem field_pushChild (n : Node) (name other : String) (child : Node) :
    (n.pushChild name child).field other =
      if name = other then (n.field name).withChild child else n.field other := by
  by_cases h : name = other <;> simp [field, pushChild, Fields.get?_upsert, h]

theorem field_setField_of_ne (n : Node) {name other : String} (h : name ≠ other) (v : Value Node) :
    (n.setField name v).field other = n.field other := by
  unfold field setField
  split <;> simp [Fields.get?_erase_of_ne h, Fields.get?_upsert, h]

theorem field_setField_self (n : Node) (name : String) {v : Value Node} (h : v.isAbsent = false) :
    (n.setField name v).field name = v := by
  simp [field, setField, h, Fields.get?_upsert]

/-- The entry for a field: none for an absent value. -/
def entry (name : String) (v : Value Node) : List (String × Value Node) :=
  if v.isAbsent then [] else [(name, v)]

theorem fields_setField_of_not_mem (n : Node) {name : String} (v : Value Node)
    (h : name ∉ n.fields.map (·.1)) : (n.setField name v).fields = n.fields ++ entry name v := by
  unfold setField entry
  split
  · simp [Fields.erase_of_not_mem h]
  · simp [Fields.upsert_of_not_mem _ h]

/-! The children. -/

/-- A child that is added to a field is one more child of the node. -/
theorem perm_children_pushChild (n : Node) (name : String) (child : Node) :
    (n.pushChild name child).children.Perm (n.children ++ [child]) := by
  rw [children, children, pushChild, fields_withFields]
  induction n.fields with
  | nil => simp [Fields.upsert, Value.withChild, Value.children]
  | cons f fs ih =>
    rw [Fields.upsert]
    split
    · simp only [List.flatMap_cons, Option.getD_some, Value.children_withChild, List.append_assoc]
      exact List.perm_append_comm.append_left _
    · simp only [List.flatMap_cons, List.append_assoc]
      exact ih.append_left _

theorem mem_children_pushChild {n : Node} {name : String} {child m : Node} :
    m ∈ (n.pushChild name child).children ↔ m ∈ n.children ∨ m = child := by
  rw [(perm_children_pushChild n name child).mem_iff, List.mem_append, List.mem_singleton]

/-- A field that holds no nodes can be set to what holds none without a change of the children. -/
theorem children_setField (n : Node) {name : String} {v : Value Node} (hv : v.children = [])
    (h : (n.field name).children = []) : (n.setField name v).children = n.children := by
  rw [field] at h
  rw [children, children, setField, fields_withFields]
  generalize n.fields = fs at h ⊢
  induction fs with
  | nil => split <;> simp [Fields.erase, Fields.upsert, hv]
  | cons f fs ih =>
    rw [Fields.get?] at h
    rw [Fields.erase, Fields.upsert]
    by_cases hname : f.1 = name
    · rw [if_pos hname, Option.getD_some] at h
      rw [if_pos hname, if_pos hname]
      split <;> simp [hv, h]
    · rw [if_neg hname] at h
      rw [if_neg hname, if_neg hname, List.flatMap_cons, ← ih h]
      split <;> rw [List.flatMap_cons]

/-- What a change of a field leaves below a node was there before, or is in the new value. -/
theorem mem_of_mem_children_setField {n m : Node} {name : String} {v : Value Node}
    (h : m ∈ (n.setField name v).children) : m ∈ n.children ∨ m ∈ v.children := by
  rw [children, setField, fields_withFields] at h
  rw [children]
  obtain ⟨f, hf, hm⟩ := List.mem_flatMap.1 h
  split at hf
  · exact .inl (List.mem_flatMap.2 ⟨f, Fields.mem_of_mem_erase hf, hm⟩)
  · rcases Fields.mem_of_mem_upsert hf with hf | rfl
    · exact .inl (List.mem_flatMap.2 ⟨f, hf, hm⟩)
    · exact .inr hm

theorem mem_children_of_child? {n m : Node} {name : String} (h : n.child? name = some m) : m ∈ n.children := by
  rw [child?, field] at h
  cases hv : Fields.get? name n.fields with
  | none =>
    rw [hv] at h
    cases h
  | some v =>
    rw [hv, Option.getD_some] at h
    have hm : m ∈ v.children := by
      cases v <;> cases h
      exact List.mem_singleton_self m
    exact List.mem_flatMap.2 ⟨(name, v), Fields.mem_of_get? hv, hm⟩

theorem children_withLocation (n : Node) (l : Location) : (n.withLocation l).children = n.children := rfl

theorem children_field_of_children {n : Node} (h : n.children = []) (name : String) :
    (n.field name).children = [] := by
  rw [field]
  cases hv : Fields.get? name n.fields with
  | none => rfl
  | some v => exact List.flatMap_eq_nil_iff.1 h _ (Fields.mem_of_get? hv)

theorem children_setField_of_children {n : Node} {name : String} {v : Value Node}
    (h : n.children = []) (hv : v.children = []) : (n.setField name v).children = [] := by
  rw [children_setField n hv (children_field_of_children h name), h]

end Node

end PrototypeScan
