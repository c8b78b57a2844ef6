import PrototypeScan.Proofs.JavaScript.Grammatical

/-!
The order of the nodes below. A field keeps the place where it first came up, so nodes come in the order of the
children that give them if the children that go to one field stand side by side, and if no text has held the place
of a field before.
-/
namespace PrototypeScan

/-- Whether equal names stand side by side. -/
def inRuns : List String → Bool
  | [] => true
  | name :: names => !(names.dropWhile (· = name)).contains name && inRuns names

section Runs

variable {name other : String} {names : List String}

theorem inRuns_tail (h : inRuns (name :: names) = true) : inRuns names = true := by
  rw [inRuns, Bool.and_eq_true] at h
  exact h.2

/-- A name that has another one behind it does not come back. -/
theorem not_mem_of_inRuns (h : inRuns (name :: other :: names) = true) (hne : other ≠ name) :
    name ∉ other :: names := by
  rw [inRuns, Bool.and_eq_true, List.dropWhile_cons_of_neg (by simpa using hne)] at h
  simpa using h.1

theorem inRuns_skip (h : inRuns (name :: other :: names) = true) : inRuns (name :: names) = true := by
  have hnames := inRuns_tail (inRuns_tail h)
  by_cases hne : other = name
  · rw [← hne]
    exact inRuns_tail h
  · have hmem := not_mem_of_inRuns h hne
    rw [inRuns, hnames, Bool.and_true, Bool.not_eq_true', List.contains_eq_mem, decide_eq_false_iff_not]
    intro hbehind
    exact hmem (List.mem_cons_of_mem _ (List.dropWhile_sublist _ |>.subset hbehind))

end Runs

/-! Fields with no nodes behind them. -/

namespace Node

/-- That no field behind the first one of a name holds nodes. -/
def LastAt (name : String) : List (String × Value Node) → Prop
  | [] => True
  | f :: fs => if f.1 = name then ∀ g ∈ fs, g.2.children = [] else LastAt name fs

variable {name other : String} {fs : List (String × Value Node)}

theorem lastAt_of_not_mem (h : name ∉ fs.map (·.1)) : LastAt name fs := by
  induction fs with
  | nil => trivial
  | cons f fs ih =>
    rw [List.map_cons, List.mem_cons, not_or] at h
    rw [LastAt, if_neg (Ne.symm h.1)]
    exact ih h.2

theorem lastAt_upsert_self (change : Option (Value Node) → Value Node) (h : LastAt name fs) :
    LastAt name (Fields.upsert name change fs) := by
  induction fs with
  | nil =>
    rw [Fields.upsert, LastAt, if_pos rfl]
    exact fun g hg => absurd hg List.not_mem_nil
  | cons f fs ih =>
    rw [LastAt] at h
    rw [Fields.upsert]
    by_cases hname : f.1 = name
    · rw [if_pos hname] at h
      rw [if_pos hname, LastAt, if_pos hname]
      exact h
    · rw [if_neg hname] at h
      rw [if_neg hname, LastAt, if_neg hname]
      exact ih h

theorem lastAt_upsert_of_ne {v : Value Node} (hv : v.children = []) (hne : other ≠ name) (h : LastAt name fs) :
    LastAt name (Fields.upsert other (fun _ => v) fs) := by
  induction fs with
  | nil =>
    rw [Fields.upsert, LastAt, if_neg hne]
    trivial
  | cons f fs ih =>
    rw [LastAt] at h
    rw [Fields.upsert]
    by_cases hother : f.1 = other
    · have hname : f.1 ≠ name := fun hname => hne (hother.symm.trans hname)
      rw [if_neg hname] at h
      rw [if_pos hother, LastAt, if_neg hname]
      exact h
    rw [if_neg hother, LastAt]
    by_cases hname : f.1 = name
    · rw [if_pos hname] at h
      rw [if_pos hname]
      intro g hg
      rcases Fields.mem_of_mem_upsert hg with hg | rfl
      · exact h g hg
      · exact hv
    · rw [if_neg hname] at h
      rw [if_neg hname]
      exact ih h

/-- A child that is added to such a field comes behind all others. -/
theorem children_pushChild_of_lastAt {n : Node} (child : Node) (h : LastAt name n.fields) :
    (n.pushChild name child).children = n.children ++ [child] := by
  rw [children, children, pushChild, fields_withFields]
  generalize n.fields = fs at h ⊢
  induction fs with
  | nil => simp [Fields.upsert, Value.withChild, Value.children]
  | cons f fs ih =>
    rw [LastAt] at h
    rw [Fields.upsert]
    split
    · next hname =>
      rw [if_pos hname] at h
      have hbehind : fs.flatMap (·.2.children) = [] := List.flatMap_eq_nil_iff.2 h
      simp [hbehind]
    · next hname =>
      rw [if_neg hname] at h
      simp only [List.flatMap_cons, ih h, List.append_assoc]

end Node

namespace JavaScript.Estree
open Text Concrete

variable {source : Source} {unnamed : String}

/-- The fields that the children go to for which grammar rules stand, in order. -/
def slots (n : Node) (unnamed : String) (cs : List Concrete) : List String :=
  (cs.filter shown).filterMap (slot? n unnamed)

theorem slots_congr {n n' : Node} (h : n.kind = n'.kind) (cs : List Concrete) :
    slots n unnamed cs = slots n' unnamed cs := by
  have hslot : slot? n unnamed = slot? n' unnamed := funext (slot?_congr h)
  rw [slots, hslot, slots]

theorem slot?_of_shown {n : Node} {c : Concrete} (h : shown c = true) :
    slot? n unnamed c = some (fieldFor n unnamed c.label.field) := by
  obtain ⟨hnamed, hextra⟩ := shown_eq_true_iff.1 h
  simp [slot?, hnamed, hextra]

theorem slot?_of_isToken {n : Node} {t : Concrete} (h : isToken t = true) : slot? n unnamed t = t.label.field := by
  obtain ⟨hnamed, hextra⟩ := isToken_eq_true_iff.1 h
  simp [slot?, hnamed, hextra]

theorem slots_cons_of_shown {n : Node} {c : Concrete} (h : shown c = true) (cs : List Concrete) :
    slots n unnamed (c :: cs) = fieldFor n unnamed c.label.field :: slots n unnamed cs := by
  rw [slots, List.filter_cons, if_pos h, List.filterMap_cons, slot?_of_shown h, slots]

theorem slots_cons_of_not_shown {n : Node} {c : Concrete} (h : shown c = false) (cs : List Concrete) :
    slots n unnamed (c :: cs) = slots n unnamed cs := by
  rw [slots, List.filter_cons, h, if_neg Bool.false_ne_true, slots]

/-- What keeps the children of a node in order while those of its concrete node are added. `latest` is the field of
the last node that has been added, `cs` are the children that are still to come. -/
structure KeepsOrder (n : Node) (unnamed : String) (latest : Option String) (cs : List Concrete) : Prop where
  runs : inRuns (latest.toList ++ slots n unnamed cs) = true
  /-- If more nodes are to come to a field that is there, it is the latest one. -/
  present : ∀ name ∈ slots n unnamed cs, name ∈ n.fields.map (·.1) → latest = some name
  last : ∀ name, latest = some name → Node.LastAt name n.fields
  /-- Tokens go to other fields, and to none with nodes. -/
  tokens : ∀ t ∈ cs, isToken t = true → ∀ name, t.label.field = some name →
    name ∉ latest.toList ++ slots n unnamed cs ∧ (n.field name).children = []

namespace KeepsOrder

variable {n : Node} {latest : Option String} {c : Concrete} {cs : List Concrete}

theorem skip (h : KeepsOrder n unnamed latest (c :: cs)) : KeepsOrder n unnamed latest cs := by
  cases hc : shown c with
  | false =>
    have hslots : slots n unnamed (c :: cs) = slots n unnamed cs := slots_cons_of_not_shown hc cs
    refine ⟨hslots ▸ h.runs, hslots ▸ h.present, h.last, fun t ht => ?_⟩
    exact hslots ▸ h.tokens t (List.mem_cons_of_mem _ ht)
  | true =>
    have hslots : slots n unnamed (c :: cs) = fieldFor n unnamed c.label.field :: slots n unnamed cs :=
      slots_cons_of_shown hc cs
    have hruns := h.runs
    rw [hslots] at hruns
    refine ⟨?_, fun name hname => h.present name (hslots ▸ List.mem_cons_of_mem _ hname), h.last, ?_⟩
    · cases latest with
      | none => exact inRuns_tail hruns
      | some name => exact inRuns_skip hruns
    · intro t ht htoken name hname
      obtain ⟨hmem, hempty⟩ := h.tokens t (List.mem_cons_of_mem _ ht) htoken name hname
      rw [hslots, List.mem_append, List.mem_cons] at hmem
      refine ⟨fun hbehind => hmem ?_, hempty⟩
      exact (List.mem_append.1 hbehind).imp_right .inr

theorem setText {t : Concrete} (h : KeepsOrder n unnamed latest (t :: cs)) (ht : isToken t = true) {name : String}
    (hname : t.label.field = some name) (text : String) :
    KeepsOrder (n.setField name (.string text)) unnamed latest cs ∧
      (n.setField name (.string text)).children = n.children := by
  obtain ⟨hmem, hempty⟩ := h.tokens t List.mem_cons_self ht name hname
  have hfields : (n.setField name (.string text)).fields = Fields.upsert name (fun _ => .string text) n.fields := rfl
  have hslots : slots (n.setField name (.string text)) unnamed cs = slots n unnamed cs := slots_congr rfl cs
  have hshown : shown t = false := by
    rw [shown, (isToken_eq_true_iff.1 ht).1, Bool.false_and]
  rw [slots_cons_of_not_shown hshown] at hmem
  refine ⟨⟨?_, ?_, ?_, ?_⟩, Node.children_setField n rfl hempty⟩
  · rw [hslots]
    exact h.skip.runs
  · intro other hother hpresent
    have hne : other ≠ name := by
      rintro rfl
      exact hmem (List.mem_append_right _ (hslots ▸ hother))
    exact h.skip.present other (hslots ▸ hother) (Fields.mem_keys_of_mem_upsert hne hpresent)
  · intro other hother
    have hne : name ≠ other := by
      rintro rfl
      exact hmem (List.mem_append_left _ (by rw [hother]; exact List.mem_singleton_self _))
    rw [hfields]
    exact Node.lastAt_upsert_of_ne rfl hne (h.last other hother)
  · intro u hu htoken other hother
    obtain ⟨hbehind, hempty'⟩ := h.skip.tokens u hu htoken other hother
    rw [hslots]
    refine ⟨hbehind, ?_⟩
    by_cases hne : name = other
    · subst hne
      rw [Node.field_setField_self n name rfl]
      rfl
    · rw [Node.field_setField_of_ne n hne]
      exact hempty'

theorem push (h : KeepsOrder n unnamed latest (c :: cs)) (hc : shown c = true) (child : Node) :
    KeepsOrder (n.pushChild (fieldFor n unnamed c.label.field) child) unnamed
        (some (fieldFor n unnamed c.label.field)) cs ∧
      (n.pushChild (fieldFor n unnamed c.label.field) child).children = n.children ++ [child] := by
  have hslots : slots n unnamed (c :: cs) = fieldFor n unnamed c.label.field :: slots n unnamed cs :=
    slots_cons_of_shown hc cs
  generalize fieldFor n unnamed c.label.field = name at hslots ⊢
  have hruns := h.runs
  rw [hslots] at hruns
  have hlast : Node.LastAt name n.fields := by
    by_cases hpresent : name ∈ n.fields.map (·.1)
    · exact h.last name (h.present name (hslots ▸ List.mem_cons_self) hpresent)
    · exact Node.lastAt_of_not_mem hpresent
  have hslots' : slots (n.pushChild name child) unnamed cs = slots n unnamed cs := slots_congr rfl cs
  refine ⟨⟨?_, ?_, ?_, ?_⟩, Node.children_pushChild_of_lastAt child hlast⟩
  · rw [hslots']
    cases latest with
    | none => exact hruns
    | some first => exact inRuns_tail hruns
  · intro other hother hpresent
    rw [hslots'] at hother
    by_cases hne : other = name
    · rw [hne]
    have hbefore : other ∈ n.fields.map (·.1) := Fields.mem_keys_of_mem_upsert hne hpresent
    -- A field that has been left for this one does not come up again.
    have hlatest := h.present other (hslots ▸ List.mem_cons_of_mem _ hother) hbefore
    rw [hlatest] at hruns
    exact absurd (List.mem_cons_of_mem _ hother) (not_mem_of_inRuns hruns (Ne.symm hne))
  · intro other hother
    obtain rfl := Option.some.inj hother
    exact Node.lastAt_upsert_self _ hlast
  · intro t ht htoken other hother
    obtain ⟨hmem, hempty⟩ := h.tokens t (List.mem_cons_of_mem _ ht) htoken other hother
    rw [hslots, List.mem_append, not_or, List.mem_cons, not_or] at hmem
    have hfield : (n.pushChild name child).field other = n.field other := by
      rw [Node.field_pushChild, if_neg (Ne.symm hmem.2.1)]
    rw [hslots', hfield]
    refine ⟨?_, hempty⟩
    show other ∉ name :: slots n unnamed cs
    rw [List.mem_cons, not_or]
    exact hmem.2

theorem add (source : Source) (h : KeepsOrder n unnamed latest (c :: cs)) :
    ∃ latest', KeepsOrder (Estree.add source unnamed n c) unnamed latest' cs ∧
      (Estree.add source unnamed n c).children = n.children ++ (result? source c).toList := by
  by_cases hextra : c.label.extra = true
  · rw [add_of_extra hextra, result?_of_extra hextra]
    exact ⟨latest, h.skip, (List.append_nil _).symm⟩
  have hextra : c.label.extra = false := by simpa using hextra
  cases hnamed : c.label.named with
  | true =>
    have hc : shown c = true := shown_eq_true_iff.2 ⟨hnamed, hextra⟩
    rw [add_of_shown hc]
    cases hresult : result? source c with
    | none => exact ⟨latest, h.skip, (List.append_nil _).symm⟩
    | some child => exact ⟨_, h.push hc child⟩
  | false =>
    have hc : isToken c = true := isToken_eq_true_iff.2 ⟨hnamed, hextra⟩
    rw [add_of_isToken hc, result?_of_isToken hc, Option.toList_none, List.append_nil]
    cases hfield : c.label.field with
    | none => exact ⟨latest, h.skip, rfl⟩
    | some name => exact ⟨latest, h.setText hc hfield _⟩

/-- Children that keep the order are added one behind the other. -/
theorem children_filled (source : Source) (h : KeepsOrder n unnamed latest cs) :
    (filled source unnamed n cs).children = n.children ++ cs.filterMap (result? source) := by
  rw [filled_eq_foldl]
  induction cs generalizing n latest with
  | nil => rw [List.foldl_nil, List.filterMap_nil, List.append_nil]
  | cons c cs ih =>
    obtain ⟨latest', hrest, hchildren⟩ := h.add source
    rw [List.foldl_cons, ih hrest, hchildren, filterMap_cons_toList, List.append_assoc]

end KeepsOrder

end JavaScript.Estree

end PrototypeScan
