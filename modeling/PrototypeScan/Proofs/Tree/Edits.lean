import Mathlib.Data.List.Induction
import PrototypeScan.Proofs.Tree.Fields

/-!
Nodes under changes of their fields. However often fields are set, taken out and given children, the fields of a node
are those that its changes left there, each with what the changes of that field alone make of it, in the order in which
they came in to stay.
-/
namespace PrototypeScan.Node

/-- A change of a field. -/
inductive Edit where
  | set (name : String) (v : Value Node)
  | push (name : String) (child : Node)

namespace Edit

/-- The field that is changed. -/
def name : Edit → String
  | set name _ => name
  | push name _ => name

def apply (n : Node) : Edit → Node
  | set name v => n.setField name v
  | push name child => n.pushChild name child

/-- What a change makes of the value of its field. -/
def onValue (v : Value Node) : Edit → Value Node
  | set _ w => w
  | push _ child => v.withChild child

end Edit

/-- A new node after changes. -/
def edited (kind : String) (edits : List Edit) : Node := edits.foldl Edit.apply (ofKind kind)

/-- What changes make of the value of a field that is not there at first. Changes of other fields do not count. -/
def valueAfter (edits : List Edit) (name : String) : Value Node :=
  (edits.filter (·.name = name)).foldl Edit.onValue .absent

/-- That a field came in to stay with the change at a position: it was not there before, and has been there since. -/
structure EntersAt (edits : List Edit) (name : String) (i : Nat) : Prop where
  lt_length : i < edits.length
  before : (valueAfter (edits.take i) name).isAbsent = true
  since : ∀ j, i < j → j ≤ edits.length → (valueAfter (edits.take j) name).isAbsent = false

/-- That one field came in to stay before another one. -/
def EntersBefore (edits : List Edit) (a b : String) : Prop := ∀ i j, EntersAt edits a i → EntersAt edits b j → i < j

/-- That the fields of a node have different names and hold something. -/
structure ProperFields (n : Node) : Prop where
  nodup : (n.fields.map (·.1)).Nodup
  isAbsent_eq : ∀ f ∈ n.fields, f.2.isAbsent = false

section Fields

variable {n : Node}

theorem eq_absent {α : Type} {v : Value α} (h : v.isAbsent = true) : v = .absent := by
  cases v <;> first | rfl | cases h

theorem field_eq_iff (h : n.ProperFields) {name : String} {v : Value Node} (hv : v.isAbsent = false) :
    n.field name = v ↔ (name, v) ∈ n.fields := by
  rw [← Fields.get?_eq_some_iff h.nodup, field]
  cases Fields.get? name n.fields with
  | none =>
    constructor
    · rintro rfl
      cases hv
    · intro hsome
      cases hsome
  | some w => rw [Option.getD_some, Option.some.injEq]

theorem mem_keys_iff (h : n.ProperFields) {name : String} :
    name ∈ n.fields.map (·.1) ↔ (n.field name).isAbsent = false := by
  constructor
  · intro hmem
    obtain ⟨f, hf, rfl⟩ := List.mem_map.1 hmem
    have hpresent := h.isAbsent_eq f hf
    rwa [(field_eq_iff h hpresent).2 hf]
  · intro hpresent
    exact List.mem_map_of_mem (f := (·.1)) ((field_eq_iff h hpresent).1 rfl)

theorem keys_setField (n : Node) (name : String) (v : Value Node) :
    (n.setField name v).fields.map (·.1) =
      if v.isAbsent then (n.fields.map (·.1)).erase name
      else if name ∈ n.fields.map (·.1) then n.fields.map (·.1) else n.fields.map (·.1) ++ [name] := by
  rw [setField, fields_withFields]
  split
  · exact Fields.keys_erase name n.fields
  · exact Fields.keys_upsert name _ n.fields

theorem ProperFields.setField (h : n.ProperFields) (name : String) (v : Value Node) :
    (n.setField name v).ProperFields := by
  constructor
  · rw [keys_setField]
    split
    · exact h.nodup.erase name
    · split
      · exact h.nodup
      · next hname =>
        refine List.nodup_append.2 ⟨h.nodup, List.pairwise_singleton _ name, fun other hother last hlast => ?_⟩
        rintro rfl
        exact hname (List.mem_singleton.1 hlast ▸ hother)
  · intro f hf
    rw [Node.setField, fields_withFields] at hf
    split at hf
    · exact h.isAbsent_eq f (Fields.mem_of_mem_erase hf)
    · next hpresent =>
      rcases Fields.mem_of_mem_upsert hf with hf | rfl
      · exact h.isAbsent_eq f hf
      · exact Bool.eq_false_iff.2 hpresent

theorem field_setField (h : n.ProperFields) (name other : String) (v : Value Node) :
    (n.setField name v).field other = if name = other then v else n.field other := by
  split
  · next hname =>
    subst hname
    cases hv : v.isAbsent with
    | false => exact field_setField_self n name hv
    | true =>
      have hgone : name ∉ (n.setField name v).fields.map (·.1) := by
        rw [keys_setField, if_pos hv]
        exact h.nodup.not_mem_erase
      rw [field, Fields.get?_of_not_mem hgone, Option.getD_none, eq_absent hv]
  · next hname => exact field_setField_of_ne n hname v

/-- To add a child to a field is to set it to what it holds with that child. -/
theorem pushChild_eq_setField (n : Node) (name : String) (child : Node) :
    n.pushChild name child = n.setField name ((n.field name).withChild child) := by
  rw [setField, Value.isAbsent_withChild, if_neg Bool.false_ne_true, pushChild]
  exact congrArg n.withFields (Fields.upsert_const name (fun v => (v.getD .absent).withChild child) n.fields).symm

theorem apply_eq_setField (n : Node) (e : Edit) : e.apply n = n.setField e.name (e.onValue (n.field e.name)) := by
  cases e with
  | set name v => rfl
  | push name child => exact pushChild_eq_setField n name child

end Fields

section Runs

variable {kind : String} {edits : List Edit}

theorem edited_concat (kind : String) (edits : List Edit) (e : Edit) :
    edited kind (edits ++ [e]) = e.apply (edited kind edits) := by
  rw [edited, List.foldl_append]
  rfl

theorem valueAfter_concat (edits : List Edit) (e : Edit) (name : String) :
    valueAfter (edits ++ [e]) name =
      if e.name = name then e.onValue (valueAfter edits name) else valueAfter edits name := by
  rw [valueAfter, List.filter_append, List.foldl_append, ← valueAfter, List.filter_cons, List.filter_nil]
  by_cases hname : e.name = name <;> simp [hname]

theorem properFields_edited (kind : String) (edits : List Edit) : (edited kind edits).ProperFields := by
  induction edits using List.reverseRecOn with
  | nil => exact ⟨List.nodup_nil, nofun⟩
  | append_singleton edits e ih =>
    rw [edited_concat, apply_eq_setField]
    exact ih.setField _ _

theorem field_edited (kind : String) (edits : List Edit) (name : String) :
    (edited kind edits).field name = valueAfter edits name := by
  induction edits using List.reverseRecOn with
  | nil => rfl
  | append_singleton edits e ih =>
    rw [edited_concat, apply_eq_setField, field_setField (properFields_edited kind edits), valueAfter_concat]
    split
    · next hname => rw [hname, ih]
    · exact ih

theorem filter_fields_apply (keep : String → Bool) {n m : Node} (e : Edit)
    (h : n.fields.filter (keep ·.1) = m.fields) :
    (e.apply n).fields.filter (keep ·.1) = if keep e.name then (e.apply m).fields else m.fields := by
  cases e with
  | set name v =>
    simp only [Edit.apply, Edit.name, setField, fields_withFields]
    split
    · rw [Fields.filter_erase, h]
    · rw [Fields.filter_upsert, h]
  | push name child =>
    simp only [Edit.apply, Edit.name, pushChild, fields_withFields]
    rw [Fields.filter_upsert, h]
    rfl

/-- The fields with some names are those that the changes of these fields alone make. -/
theorem filter_fields_edited (keep : String → Bool) (kind : String) (edits : List Edit) :
    (edited kind edits).fields.filter (keep ·.1) = (edited kind (edits.filter (keep ·.name))).fields := by
  induction edits using List.reverseRecOn with
  | nil => rfl
  | append_singleton edits e ih =>
    rw [edited_concat, filter_fields_apply keep e ih, List.filter_append, List.filter_cons, List.filter_nil]
    split
    · rw [edited_concat]
    · rw [List.append_nil]

theorem mem_keys_edited_iff (kind : String) (edits : List Edit) {name : String} :
    name ∈ (edited kind edits).fields.map (·.1) ↔ (valueAfter edits name).isAbsent = false := by
  rw [mem_keys_iff (properFields_edited kind edits), field_edited]

/-- The fields are told by their names and the changes. -/
theorem fields_edited (kind : String) (edits : List Edit) :
    (edited kind edits).fields =
      ((edited kind edits).fields.map (·.1)).map fun name => (name, valueAfter edits name) := by
  rw [List.map_map]
  refine (List.map_id _).symm.trans (List.map_congr_left fun f hf => ?_)
  have hproper := properFields_edited kind edits
  rw [Function.comp_apply, ← field_edited kind, (field_eq_iff hproper (hproper.isAbsent_eq f hf)).2 hf]
  rfl

theorem children_edited (kind : String) (edits : List Edit) :
    (edited kind edits).children =
      ((edited kind edits).fields.map (·.1)).flatMap fun name => (valueAfter edits name).children := by
  conv_lhs => rw [children, fields_edited, List.flatMap_map]

theorem childrenBackwards_eq (n : Node) : n.childrenBackwards = n.children.reverse := by
  rw [children, List.reverse_flatMap]
  rfl

/-! The order of the fields. -/

theorem isAbsent_take_concat {e : Edit} {name : String} {i : Nat} (h : i ≤ edits.length) :
    (valueAfter ((edits ++ [e]).take i) name).isAbsent = (valueAfter (edits.take i) name).isAbsent := by
  rw [List.take_append_of_le_length h]

theorem isAbsent_since {e : Edit} {name : String} {i : Nat}
    (hafter : (valueAfter (edits ++ [e]) name).isAbsent = false)
    (h : ∀ j, i < j → j ≤ edits.length → (valueAfter (edits.take j) name).isAbsent = false) :
    ∀ j, i < j → j ≤ (edits ++ [e]).length → (valueAfter ((edits ++ [e]).take j) name).isAbsent = false := by
  intro j hij hj
  rw [List.length_append, List.length_singleton] at hj
  rcases Nat.lt_or_eq_of_le hj with hlt | rfl
  · rw [isAbsent_take_concat (Nat.le_of_lt_succ hlt)]
    exact h j hij (Nat.le_of_lt_succ hlt)
  · rwa [List.take_of_length_le (by simp)]

/-- A field that was there and is there after one more change came in when it did before. -/
theorem entersAt_concat_iff {e : Edit} {name : String} {i : Nat}
    (hbefore : (valueAfter edits name).isAbsent = false)
    (hafter : (valueAfter (edits ++ [e]) name).isAbsent = false) :
    EntersAt (edits ++ [e]) name i ↔ EntersAt edits name i := by
  constructor
  · rintro ⟨hlt, habsent, hsince⟩
    rw [List.length_append, List.length_singleton] at hlt
    rw [isAbsent_take_concat (Nat.le_of_lt_succ hlt)] at habsent
    have hne : i ≠ edits.length := by
      rintro rfl
      rw [List.take_length, hbefore] at habsent
      cases habsent
    refine ⟨by omega, habsent, fun j hij hj => ?_⟩
    rw [← isAbsent_take_concat hj]
    exact hsince j hij (by simp; omega)
  · rintro ⟨hlt, habsent, hsince⟩
    refine ⟨by simp; omega, ?_, isAbsent_since hafter hsince⟩
    rwa [isAbsent_take_concat (Nat.le_of_lt hlt)]

/-- A field that was not there and is there after one more change came in with this one. -/
theorem entersAt_concat_iff_of_isAbsent {e : Edit} {name : String} {i : Nat}
    (hbefore : (valueAfter edits name).isAbsent = true)
    (hafter : (valueAfter (edits ++ [e]) name).isAbsent = false) :
    EntersAt (edits ++ [e]) name i ↔ i = edits.length := by
  constructor
  · rintro ⟨hlt, -, hsince⟩
    rw [List.length_append, List.length_singleton] at hlt
    by_contra hne
    have hpresent := hsince edits.length (by omega) (by simp)
    rw [isAbsent_take_concat (Nat.le_refl _), List.take_length, hbefore] at hpresent
    cases hpresent
  · rintro rfl
    refine ⟨by simp, ?_, isAbsent_since hafter fun j hij hj => absurd hij (Nat.not_lt_of_le hj)⟩
    rwa [isAbsent_take_concat (Nat.le_refl _), List.take_length]

theorem exists_entersAt_iff {name : String} :
    (∃ i, EntersAt edits name i) ↔ (valueAfter edits name).isAbsent = false := by
  constructor
  · rintro ⟨i, hlt, -, hsince⟩
    have hpresent := hsince edits.length hlt (Nat.le_refl _)
    rwa [List.take_length] at hpresent
  · intro hpresent
    induction edits using List.reverseRecOn with
    | nil => cases hpresent
    | append_singleton edits e ih =>
      cases hbefore : (valueAfter edits name).isAbsent with
      | true => exact ⟨_, (entersAt_concat_iff_of_isAbsent hbefore hpresent).2 rfl⟩
      | false =>
        obtain ⟨i, hi⟩ := ih hbefore
        exact ⟨i, (entersAt_concat_iff hbefore hpresent).2 hi⟩

/-- One more change takes no field out but its own, moves none, and adds a field at the end if at all. -/
theorem keys_edited_concat (kind : String) (edits : List Edit) (e : Edit) :
    ((edited kind (edits ++ [e])).fields.map (·.1)).Sublist ((edited kind edits).fields.map (·.1)) ∨
      e.name ∉ (edited kind edits).fields.map (·.1) ∧
        (edited kind (edits ++ [e])).fields.map (·.1) = (edited kind edits).fields.map (·.1) ++ [e.name] := by
  rw [edited_concat, apply_eq_setField, keys_setField]
  split
  · exact .inl List.erase_sublist
  · split
    · exact .inl (List.Sublist.refl _)
    · next hname => exact .inr ⟨hname, rfl⟩

/-- The fields of a node stand in the order in which they came in to stay. -/
theorem keys_edited_ordered (kind : String) (edits : List Edit) :
    ((edited kind edits).fields.map (·.1)).Pairwise (EntersBefore edits) := by
  induction edits using List.reverseRecOn with
  | nil => exact List.Pairwise.nil
  | append_singleton edits e ih =>
    -- What was there and still is came in when it did before.
    have hstays {name : String} (hbefore : name ∈ (edited kind edits).fields.map (·.1))
        (hafter : name ∈ (edited kind (edits ++ [e])).fields.map (·.1)) (i : Nat) :
        EntersAt (edits ++ [e]) name i ↔ EntersAt edits name i :=
      entersAt_concat_iff ((mem_keys_edited_iff kind edits).1 hbefore) ((mem_keys_edited_iff kind _).1 hafter)
    have hordered {names : List String} (hsub : names.Sublist ((edited kind edits).fields.map (·.1)))
        (hkept : ∀ name ∈ names, name ∈ (edited kind (edits ++ [e])).fields.map (·.1)) :
        names.Pairwise (EntersBefore (edits ++ [e])) := by
      refine (ih.sublist hsub).imp_of_mem fun {a b} ha hb hab i j hi hj => ?_
      have hi' := (hstays (hsub.subset ha) (hkept a ha) i).1 hi
      have hj' := (hstays (hsub.subset hb) (hkept b hb) j).1 hj
      exact hab i j hi' hj'
    rcases keys_edited_concat kind edits e with hsub | ⟨hnew, hkeys⟩
    · exact hordered hsub fun _ hname => hname
    · have hkept : ∀ name ∈ (edited kind edits).fields.map (·.1),
          name ∈ (edited kind (edits ++ [e])).fields.map (·.1) := by
        rw [hkeys]
        exact fun name => List.mem_append_left [e.name]
      have hlast : (valueAfter (edits ++ [e]) e.name).isAbsent = false := by
        rw [← mem_keys_edited_iff kind, hkeys]
        exact List.mem_append_right _ (List.mem_singleton_self _)
      have habsent : (valueAfter edits e.name).isAbsent = true := by
        rw [← Bool.not_eq_false, ← mem_keys_edited_iff kind]
        exact hnew
      rw [hkeys, List.pairwise_append]
      refine ⟨hordered (List.Sublist.refl _) hkept, List.pairwise_singleton _ _, fun a ha b hb i j hi hj => ?_⟩
      obtain rfl := List.mem_singleton.1 hb
      rw [(entersAt_concat_iff_of_isAbsent habsent hlast).1 hj]
      exact ((hstays ha (hkept a ha) i).1 hi).lt_length

/-- The fields of another name are those that there were. -/
theorem filter_fields_edited_concat (kind : String) (edits : List Edit) (e : Edit) :
    (edited kind (edits ++ [e])).fields.filter (·.1 ≠ e.name) = (edited kind edits).fields.filter (·.1 ≠ e.name) := by
  rw [filter_fields_edited (· ≠ e.name), filter_fields_edited (· ≠ e.name), List.filter_append]
  simp

/-- A new node after any changes. Its fields have different names, each holds something, namely what the changes of
that field alone make of it, and they stand in the order in which they came in to stay. A change leaves the fields of
other names as they are, and a field with nodes gains one by a child that is added to it. The children are the nodes of
the fields in this order, and the other way round from the back. -/
theorem edited_exact (kind : String) (edits : List Edit) :
    let n := edited kind edits
    let names := n.fields.map (·.1)
    n.ProperFields ∧
      (∀ name, n.field name = valueAfter edits name) ∧
      (∀ name, name ∈ names ↔ ∃ i, EntersAt edits name i) ∧
      names.Pairwise (EntersBefore edits) ∧
      (∀ e, (edited kind (edits ++ [e])).fields.filter (·.1 ≠ e.name) = n.fields.filter (·.1 ≠ e.name)) ∧
      (∀ name, n.fields.filter (·.1 ≠ name) = (edited kind (edits.filter (·.name ≠ name))).fields) ∧
      (∀ name child, ((edited kind (edits ++ [.push name child])).field name).children =
        (n.field name).children ++ [child]) ∧
      n.children = names.flatMap (fun name => (valueAfter edits name).children) ∧
      n.childrenBackwards = n.children.reverse := by
  refine ⟨properFields_edited kind edits, field_edited kind edits, fun name => ?_, keys_edited_ordered kind edits,
    filter_fields_edited_concat kind edits, fun name => filter_fields_edited (· ≠ name) kind edits,
    fun name child => ?_, children_edited kind edits, childrenBackwards_eq _⟩
  · rw [mem_keys_edited_iff, exists_entersAt_iff]
  · rw [field_edited, field_edited, valueAfter_concat, if_pos (show (Edit.push name child).name = name from rfl)]
    exact Value.children_withChild _ child

example : (edited "Program" [.set "body" .null, .set "head" (.bool true), .set "body" .absent, .set "head" .null,
    .push "body" (ofKind "Literal")]).fields.map (·.1) = ["head", "body"] := by decide

end Runs

end PrototypeScan.Node
