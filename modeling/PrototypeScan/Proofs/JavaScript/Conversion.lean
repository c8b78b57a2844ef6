import Mathlib.Logic.Relation
import PrototypeScan.Proofs.JavaScript.Filled
import PrototypeScan.Proofs.Text.UnitCounter

/-!
The conversion with a cursor and unfinished nodes gives what the recursion over the concrete tree gives.
What a concrete node adds to the unfinished nodes is said by recursion (`Builder.receive`); the cursor,
once it has come to a node, is done with it after finitely many moves and has added just that.
-/
namespace PrototypeScan.JavaScript.Estree
open Text Concrete

variable {source : Source}

/-! What an unfinished node takes from the children of its concrete node. -/

namespace Frame

/-- The frame that a concrete node opens. -/
def opening (source : Source) (c : Concrete) : Frame :=
  if c.label.kind = parenthesized then .transparent c.label.field none
  else .element (opened source c.label.kind (location source c.label.start)) c.label.field
    (unnamedField c.label.kind)

/-- A frame with one more child of its concrete node. -/
def receive (source : Source) (f : Frame) (c : Concrete) : Frame :=
  match f with
  | .element n field unnamed => .element (add source unnamed n c) field unnamed
  | .transparent field inner => .transparent field (inner.or (result? source c))

theorem foldl_receive_element (n : Node) (field : Option String) (unnamed : String)
    (cs : List Concrete) :
    cs.foldl (receive source) (.element n field unnamed) =
      .element (filled source unnamed n cs) field unnamed := by
  rw [filled_eq_foldl]
  induction cs generalizing n with
  | nil => rfl
  | cons c cs ih => rw [List.foldl_cons, receive, ih, List.foldl_cons]

theorem foldl_receive_transparent (field : Option String) (inner : Option Node) (cs : List Concrete) :
    cs.foldl (receive source) (.transparent field inner) =
      .transparent field (inner.or (firstResult? source cs)) := by
  induction cs generalizing inner with
  | nil => simp [firstResult?]
  | cons c cs ih =>
    rw [List.foldl_cons, receive, ih, firstResult?, Option.or_assoc]
    cases result? source c <;> rfl

end Frame

namespace Builder

/-- The unfinished nodes when the cursor is done with a concrete node. -/
def receive (source : Source) (b : Builder) (c : Concrete) : Builder :=
  match result? source c with
  | some n => b.attach c.label.field n
  | none => if c.label.extra || c.label.named then b else b.setText source c

/-- The same builder with another counter. -/
def counting (b : Builder) (k : UnitCounter) : Builder := { b with counter := k }

@[simp] theorem root_counting (b : Builder) (k : UnitCounter) : (b.counting k).root = b.root := rfl

@[simp] theorem counting_counting (b : Builder) (k k' : UnitCounter) :
    (b.counting k).counting k' = b.counting k' := rfl

theorem attach_counting (b : Builder) (k : UnitCounter) (field : Option String) (n : Node) :
    (b.counting k).attach field n = (b.attach field n).counting k := by
  obtain ⟨frames, root, counter⟩ := b
  rcases frames with - | ⟨_ | _, rest⟩ <;> rfl

theorem close_counting (b : Builder) (k : UnitCounter) :
    (b.counting k).close = b.close.counting k := by
  obtain ⟨frames, root, counter⟩ := b
  rcases frames with - | ⟨_ | ⟨field, inner⟩, rest⟩
  · rfl
  · exact attach_counting ⟨rest, root, counter⟩ k _ _
  · cases inner with
    | none => rfl
    | some n => exact attach_counting ⟨rest, root, counter⟩ k field n

theorem setText_counting (b : Builder) (k : UnitCounter) (c : Concrete) :
    (b.counting k).setText source c = (b.setText source c).counting k := by
  obtain ⟨frames, root, counter⟩ := b
  cases hfield : c.label.field <;> rcases frames with - | ⟨_ | _, rest⟩ <;>
    simp [setText, counting, hfield]

theorem receive_counting (b : Builder) (k : UnitCounter) (c : Concrete) :
    (b.counting k).receive source c = (b.receive source c).counting k := by
  unfold receive
  split
  · exact attach_counting b k _ _
  · split
    · rfl
    · exact setText_counting b k c

theorem foldl_receive_counting (b : Builder) (k : UnitCounter) (cs : List Concrete) :
    cs.foldl (receive source) (b.counting k) = (cs.foldl (receive source) b).counting k := by
  induction cs generalizing b with
  | nil => rfl
  | cons c cs ih => rw [List.foldl_cons, receive_counting, ih, List.foldl_cons]

/-- The same builder with one more unfinished node. -/
def within (b : Builder) (f : Frame) : Builder := { b with frames := f :: b.frames }

theorem receive_within (b : Builder) (f : Frame) (c : Concrete) :
    (b.within f).receive source c = b.within (f.receive source c) := by
  unfold receive
  cases hc : result? source c with
  | some child => cases f <;> simp [within, attach, Frame.receive, add, hc]
  | none =>
    by_cases hskip : (c.label.extra || c.label.named) = true
    · cases f <;> simp only [hskip, if_true, Frame.receive, add, hc, Option.or_none]
    · cases f <;> cases hfield : c.label.field <;>
        simp [hskip, Frame.receive, add, hc, within, setText, hfield]

theorem foldl_receive_within (b : Builder) (f : Frame) (cs : List Concrete) :
    cs.foldl (receive source) (b.within f) = b.within (cs.foldl (Frame.receive source) f) := by
  induction cs generalizing f with
  | nil => rfl
  | cons c cs ih => rw [List.foldl_cons, receive_within, ih, List.foldl_cons]

end Builder

/-- Whether the cursor goes on to the children of a concrete node. -/
def opens (c : Concrete) : Bool := !c.label.extra && c.label.named && !isLeaf c.label.kind

theorem isLeaf_parenthesized : isLeaf parenthesized = false := by decide

/-- Finishing the frame of a concrete node, once the children are in it, gives the node's result to the
frame around it. -/
theorem close_opening (source : Source) {c : Concrete} (hc : opens c = true) (b : Builder) :
    (b.within (c.children.foldl (Frame.receive source) (Frame.opening source c))).close =
      b.receive source c := by
  obtain ⟨l, cs⟩ := c
  simp only [opens, label, Bool.and_eq_true, Bool.not_eq_true'] at hc
  obtain ⟨⟨hextra, hnamed⟩, hleaf⟩ := hc
  by_cases hparen : l.kind = parenthesized
  · have hresult : result? source (.node l cs) = firstResult? source cs := by
      simp [result?, hextra, hnamed, hparen]
    simp only [Frame.opening, label, children, hparen, if_true, Frame.foldl_receive_transparent]
    cases hfirst : firstResult? source cs <;>
      simp [Builder.close, Builder.within, Builder.receive, hresult, hfirst, label, hnamed]
  · have hresult : result? source (.node l cs) = some (filled source (unnamedField l.kind)
        (opened source l.kind (location source l.start)) cs) := by
      simp [result?, hextra, hnamed, hparen, hleaf]
    simp only [Frame.opening, label, children, hparen, if_false, Frame.foldl_receive_element]
    simp [Builder.close, Builder.within, Builder.receive, hresult, label]

theorem enter_opens {b : Builder} (hb : b.counter.Exact source.chars) {c : Concrete}
    (hc : opens c = true) : ∃ k : UnitCounter, k.Exact source.chars ∧
      b.enter source c = (true, (b.within (Frame.opening source c)).counting k) := by
  simp only [opens, Bool.and_eq_true, Bool.not_eq_true'] at hc
  obtain ⟨⟨hextra, hnamed⟩, hleaf⟩ := hc
  refine ⟨_, UnitCounter.exact_moveTo hb c.label.start.lineStart_le, ?_⟩
  by_cases hparen : c.label.kind = parenthesized
  · simp [Builder.enter, Builder.locate, Builder.within, Builder.counting, Frame.opening, hextra,
      hnamed, hparen]
  · simp [Builder.enter, Builder.locate, Builder.within, Builder.counting, Frame.opening, hextra,
      hnamed, hparen, hleaf, location, UnitCounter.counted_moveTo hb]

theorem enter_not_opens {b : Builder} (hb : b.counter.Exact source.chars) {c : Concrete}
    (hc : opens c = false) : ∃ k : UnitCounter, k.Exact source.chars ∧
      b.enter source c = (false, (b.receive source c).counting k) := by
  obtain ⟨l, cs⟩ := c
  by_cases hextra : l.extra = true
  · refine ⟨b.counter, hb, ?_⟩
    simp [Builder.enter, Builder.receive, result?, label, hextra, Builder.counting]
  by_cases hnamed : l.named = true
  · have hleaf : isLeaf l.kind = true := by simpa [opens, label, hextra, hnamed] using hc
    have hparen : l.kind ≠ parenthesized := by
      intro h
      rw [h, isLeaf_parenthesized] at hleaf
      cases hleaf
    have hresult : result? source (.node l cs) = some (leaf l.kind ((Concrete.node l cs).text source.chars)
        (location source l.start)) := by
      simp [result?, hextra, hnamed, hparen, hleaf]
    refine ⟨_, UnitCounter.exact_moveTo hb l.start.lineStart_le, ?_⟩
    simp only [Builder.enter, Builder.receive, Builder.locate, label, hextra, hnamed, hparen, hleaf, hresult,
      if_true, if_false, Bool.not_true, Bool.false_eq_true, UnitCounter.counted_moveTo hb]
    exact congrArg _ (Builder.attach_counting b _ _ _)
  · have hresult : result? source (.node l cs) = none := by simp [result?, hnamed]
    refine ⟨b.counter, hb, ?_⟩
    simp only [Builder.enter, Builder.receive, label, hextra, hnamed, hresult, if_false, Bool.not_false,
      if_true, Bool.or_self, Bool.false_eq_true, ← Builder.setText_counting]
    rfl

/-! The moves of the cursor. -/

/-- That one state of the conversion leads to another in finitely many moves. -/
def Reaches (source : Source) : Progress → Progress → Prop :=
  Relation.ReflTransGen fun p q => p.step? source = some q

theorem reaches_step {p q : Progress} (h : p.step? source = some q) : Reaches source p q := .single h

mutual

/-- Once the cursor has come to a concrete node, it gets done with it, and the node has then been added to
the unfinished nodes. -/
theorem reaches_leaving (source : Source) (c : Concrete) (later : List Concrete)
    (above : List (Concrete × List Concrete)) (b : Builder) (hb : b.counter.Exact source.chars) :
    ∃ k : UnitCounter, k.Exact source.chars ∧
      Reaches source ⟨.arriving, ⟨c, later, above⟩, b⟩
        ⟨.leaving, ⟨c, later, above⟩, (b.receive source c).counting k⟩ := by
  cases hc : opens c with
  | false =>
    obtain ⟨k, hk, henter⟩ := enter_not_opens hb hc
    exact ⟨k, hk, reaches_step (by simp only [Progress.step?, henter])⟩
  | true =>
    obtain ⟨k, hk, henter⟩ := enter_opens hb hc
    have hclose := close_opening source hc b
    rw [← Builder.foldl_receive_within] at hclose
    cases c with
    | node l cs => cases cs with
      | nil =>
        refine ⟨k, hk, reaches_step ?_⟩
        rw [children, List.foldl_nil] at hclose
        simp only [Progress.step?, henter, Cursor.firstChild?, children]
        rw [Builder.close_counting, hclose]
      | cons d ds =>
        let inside := b.within (Frame.opening source (.node l (d :: ds)))
        have hdown : Reaches source ⟨.arriving, ⟨.node l (d :: ds), later, above⟩, b⟩
            ⟨.arriving, ⟨d, ds, (.node l (d :: ds), later) :: above⟩, inside.counting k⟩ :=
          reaches_step (by simp only [Progress.step?, henter, Cursor.firstChild?, children, inside])
        obtain ⟨k₁, hk₁, hchild⟩ := reaches_leaving source d ds ((.node l (d :: ds), later) :: above)
          (inside.counting k) hk
        obtain ⟨k₂, hk₂, hup⟩ := reaches_parent source d ds (.node l (d :: ds)) later above
          (((inside.counting k).receive source d).counting k₁) hk₁
        refine ⟨k₂, hk₂, (hdown.trans hchild).trans ?_⟩
        rw [children, List.foldl_cons] at hclose
        rw [Builder.receive_counting, Builder.counting_counting] at hup ⊢
        rw [Builder.foldl_receive_counting, Builder.close_counting, Builder.counting_counting,
          hclose] at hup
        exact hup

/-- From a node with the siblings `cs` behind it, the cursor gets back to the parent, and the siblings have
then been added to the parent's frame and that frame is finished. -/
theorem reaches_parent (source : Source) (d : Concrete) (cs : List Concrete) (p : Concrete)
    (later : List Concrete) (above : List (Concrete × List Concrete)) (b : Builder)
    (hb : b.counter.Exact source.chars) :
    ∃ k : UnitCounter, k.Exact source.chars ∧
      Reaches source ⟨.leaving, ⟨d, cs, (p, later) :: above⟩, b⟩
        ⟨.leaving, ⟨p, later, above⟩, (cs.foldl (Builder.receive source) b).close.counting k⟩ := by
  cases cs with
  | nil =>
    refine ⟨b.counter, hb, reaches_step ?_⟩
    rw [List.foldl_nil, ← Builder.close_counting]
    rfl
  | cons c cs =>
    have hnext : Reaches source ⟨.leaving, ⟨d, c :: cs, (p, later) :: above⟩, b⟩
        ⟨.arriving, ⟨c, cs, (p, later) :: above⟩, b⟩ := reaches_step rfl
    obtain ⟨k₁, hk₁, hchild⟩ := reaches_leaving source c cs ((p, later) :: above) b hb
    obtain ⟨k₂, hk₂, hup⟩ := reaches_parent source c cs p later above
      ((b.receive source c).counting k₁) hk₁
    refine ⟨k₂, hk₂, (hnext.trans hchild).trans ?_⟩
    rw [Builder.foldl_receive_counting, Builder.close_counting, Builder.counting_counting] at hup
    exact hup

end

theorem run_eq_of_reaches {p q : Progress} (h : Reaches source p q) : p.run source = q.run source := by
  induction h with
  | refl => rfl
  | tail _ hstep ih =>
    rw [ih, Progress.run]
    split
    · next hnone => rw [hnone] at hstep; cases hstep
    · next hsome => rw [hsome] at hstep; rw [Option.some.inj hstep]

theorem run_eq_builder {p : Progress} (h : p.step? source = none) : p.run source = p.builder := by
  rw [Progress.run]
  split
  · rfl
  · next hsome => rw [h] at hsome; cases hsome

theorem receive_start (source : Source) (c : Concrete) :
    (Builder.start.receive source c).frames = [] ∧
      (Builder.start.receive source c).root = result? source c := by
  unfold Builder.receive
  cases hc : result? source c with
  | some n => exact ⟨rfl, rfl⟩
  | none =>
    by_cases hskip : (c.label.extra || c.label.named) = true
    · simp [hskip, Builder.start]
    · cases hfield : c.label.field <;> simp [hskip, Builder.start, Builder.setText, hfield]

/-- From the root the cursor gets back to it, and no move is left there. -/
theorem reaches_end (source : Source) (c : Concrete) : ∃ k : UnitCounter,
    Reaches source (.start c) ⟨.leaving, .start c, (Builder.start.receive source c).counting k⟩ := by
  obtain ⟨k, -, hreach⟩ := reaches_leaving source c [] [] .start (UnitCounter.exact_start _)
  exact ⟨k, hreach⟩

theorem step?_end (source : Source) (c : Concrete) (b : Builder) :
    Progress.step? source ⟨.leaving, .start c, b⟩ = none := rfl

theorem build_eq_result? (source : Source) (c : Concrete) : build source c = result? source c := by
  obtain ⟨k, hreach⟩ := reaches_end source c
  rw [build, run_eq_of_reaches hreach, run_eq_builder (step?_end source c _), Builder.root_counting]
  exact (receive_start source c).2

/-- From the root of any concrete tree the conversion makes finitely many moves until none is left. There
are no unfinished nodes then, and the finished root is what the recursion over the tree gives. -/
theorem conversion_ends (source : Source) (c : Concrete) :
    ∃ last : Progress,
      Relation.ReflTransGen (fun p q => p.step? source = some q) (.start c) last ∧
      last.step? source = none ∧ last.builder.frames = [] ∧
      last.builder.root = result? source c ∧ build source c = result? source c := by
  obtain ⟨k, hreach⟩ := reaches_end source c
  obtain ⟨hframes, hroot⟩ := receive_start source c
  exact ⟨_, hreach, step?_end source c _, hframes, hroot, build_eq_result? source c⟩

end PrototypeScan.JavaScript.Estree
