import PrototypeScan.Proofs.Concrete.Subtrees
import PrototypeScan.Proofs.JavaScript.Filled

/-!
The shape of the concrete trees that a grammar gives to sources without errors, as far as assignments to
members depend on it. One kind of tree has another shape: the condition of a `for` loop shares its field with
the semicolon behind it, whose text then takes the place of the condition.
-/
namespace PrototypeScan.JavaScript.Estree
open Concrete

/-- Whether a grammar rule stands for a concrete node in the place where it is. -/
def shown (c : Concrete) : Bool := c.label.named && !c.label.extra

theorem shown_eq_true_iff {c : Concrete} : shown c = true ↔ c.label.named = true ∧ c.label.extra = false := by
  rw [shown, Bool.and_eq_true, Bool.not_eq_true']

/-- Whether a concrete node is a token that has its place in a grammar rule. -/
def isToken (c : Concrete) : Bool := !c.label.named && !c.label.extra

theorem isToken_eq_true_iff {c : Concrete} : isToken c = true ↔ c.label.named = false ∧ c.label.extra = false := by
  rw [isToken, Bool.and_eq_true, Bool.not_eq_true', Bool.not_eq_true']

theorem result?_of_isToken {source : Source} {t : Concrete} (h : isToken t = true) : result? source t = none :=
  result?_of_token (isToken_eq_true_iff.1 h).1

theorem add_of_shown {source : Source} {unnamed : String} {n : Node} {c : Concrete} (h : shown c = true) :
    add source unnamed n c =
      ((result? source c).map (n.pushChild (fieldFor n unnamed c.label.field))).getD n := by
  obtain ⟨hnamed, hextra⟩ := shown_eq_true_iff.1 h
  rw [add, hnamed, hextra]
  cases result? source c <;> rfl

theorem add_of_isToken {source : Source} {unnamed : String} {n : Node} {t : Concrete} (h : isToken t = true) :
    add source unnamed n t = (t.label.field.map fun name => n.setField name (.string (t.text source.chars))).getD n := by
  obtain ⟨hnamed, hextra⟩ := isToken_eq_true_iff.1 h
  rw [add, result?_of_isToken h, hnamed, hextra]
  cases t.label.field <;> rfl

/-- The children under a field. What may stand anywhere is under none. -/
def childrenAt (field : String) (c : Concrete) : List Concrete :=
  c.children.filter fun d => !d.label.extra && d.label.field = some field

/-- How many children are under a field. -/
def count (field : String) (c : Concrete) : Nat := (childrenAt field c).length

def assignmentKinds : List String := ["assignment_expression", "augmented_assignment_expression"]

def memberKinds : List String := ["member_expression", "subscript_expression"]

/-- The field that a child fills in the node of its parent. -/
def slotIn (parent child : Concrete) : Option String :=
  slot? (.ofKind (kindOf parent.label.kind)) (unnamedField parent.label.kind) child

/-- The shape of a concrete node that a grammar rule stands for. -/
structure Regular (c : Concrete) : Prop where
  assignment : c.label.kind ∈ assignmentKinds → count "left" c = 1
  object : c.label.kind ∈ memberKinds → count "object" c = 1
  member : c.label.kind = "member_expression" → count "property" c = 1 ∧ count "index" c = 0
  property : c.label.kind = "member_expression" → ∀ d ∈ childrenAt "property" c,
    d.label.kind = "property_identifier" ∨ d.label.kind = privateKind
  subscript : c.label.kind = "subscript_expression" → count "index" c = 1 ∧ count "property" c = 0
  parentheses : c.label.kind = parenthesized → (c.children.filter shown).length = 1
  computed : count "computed" c = 0
  /-- A token that fills a field does not share it with a named node. -/
  token : ∀ t ∈ c.children, t.label.named = false → ∀ d ∈ c.children, d.label.named = true →
    slotIn c t = slotIn c d → slotIn c t = none
  assigns : kindOf c.label.kind = "AssignmentExpression" → c.label.kind ∈ assignmentKinds
  accesses : kindOf c.label.kind = "MemberExpression" → c.label.kind ∈ memberKinds
  identifier : kindOf c.label.kind = "Identifier" → isLeaf c.label.kind = true
  literal : kindOf c.label.kind = "Literal" → isLeaf c.label.kind = true

instance (c : Concrete) : Decidable (Regular c) :=
  decidable_of_iff
    ((c.label.kind ∈ assignmentKinds → count "left" c = 1) ∧
      (c.label.kind ∈ memberKinds → count "object" c = 1) ∧
      (c.label.kind = "member_expression" → count "property" c = 1 ∧ count "index" c = 0) ∧
      (c.label.kind = "member_expression" → ∀ d ∈ childrenAt "property" c,
        d.label.kind = "property_identifier" ∨ d.label.kind = privateKind) ∧
      (c.label.kind = "subscript_expression" → count "index" c = 1 ∧ count "property" c = 0) ∧
      (c.label.kind = parenthesized → (c.children.filter shown).length = 1) ∧
      count "computed" c = 0 ∧
      (∀ t ∈ c.children, t.label.named = false → ∀ d ∈ c.children, d.label.named = true →
        slotIn c t = slotIn c d → slotIn c t = none) ∧
      (kindOf c.label.kind = "AssignmentExpression" → c.label.kind ∈ assignmentKinds) ∧
      (kindOf c.label.kind = "MemberExpression" → c.label.kind ∈ memberKinds) ∧
      (kindOf c.label.kind = "Identifier" → isLeaf c.label.kind = true) ∧
      (kindOf c.label.kind = "Literal" → isLeaf c.label.kind = true))
    ⟨fun ⟨h₁, h₂, h₃, h₄, h₅, h₆, h₇, h₈, h₉, h₁₀, h₁₁, h₁₂⟩ =>
        ⟨h₁, h₂, h₃, h₄, h₅, h₆, h₇, h₈, h₉, h₁₀, h₁₁, h₁₂⟩,
      fun h => ⟨h.assignment, h.object, h.member, h.property, h.subscript, h.parentheses, h.computed,
        h.token, h.assigns, h.accesses, h.identifier, h.literal⟩⟩

/-- That all nodes of a concrete tree that grammar rules stand for have their shape. -/
def Grammatical (c : Concrete) : Prop := ∀ d ∈ c.subtrees, shown d = true → Regular d

instance (c : Concrete) : Decidable (Grammatical c) :=
  inferInstanceAs (Decidable (∀ d ∈ c.subtrees, shown d = true → Regular d))

theorem Grammatical.child {l : Label} {cs : List Concrete} (h : Grammatical (.node l cs)) {c : Concrete}
    (hc : c ∈ cs) : Grammatical c :=
  fun d hd => h d (mem_subtrees_of_child hc hd)

theorem Grammatical.regular {c : Concrete} (h : Grammatical c) (hshown : shown c = true) : Regular c :=
  h c (mem_subtrees_self c) hshown

end PrototypeScan.JavaScript.Estree
