import PrototypeScan.JavaScript.Layout
import PrototypeScan.Proofs.Concrete.Subtrees
import PrototypeScan.Proofs.Text.Lines

/-!
The points of a parsed text are exact. A reading of a text stands at a point with what is still to be read in
front of it, and reading a lexeme, ending a production and finishing a tree keep that and the points of the
nodes.
-/
namespace PrototypeScan

variable {chars : Array Char}

namespace Concrete

/-- That all nodes of a tree start at exact points. -/
def Placed (chars : Array Char) (c : Concrete) : Prop := ∀ d ∈ c.subtrees, d.label.start.Exact chars

theorem placed_node {l : Label} {cs : List Concrete} (hl : l.start.Exact chars) (hcs : ∀ c ∈ cs, c.Placed chars) :
    (node l cs).Placed chars := by
  intro d hd
  rw [subtrees, listSubtrees_eq, List.mem_cons, List.mem_flatMap] at hd
  rcases hd with rfl | ⟨c, hc, hd⟩
  · exact hl
  · exact hcs c hc d hd

theorem Placed.start {c : Concrete} (h : c.Placed chars) : c.label.start.Exact chars :=
  h c (mem_subtrees_self c)

theorem Placed.children {l : Label} {cs : List Concrete} (h : (node l cs).Placed chars) :
    ∀ c ∈ cs, c.Placed chars :=
  fun _ hc d hd => h d (mem_subtrees_of_child hc hd)

theorem Placed.under {c : Concrete} (h : c.Placed chars) (field : Option String) : (c.under field).Placed chars := by
  cases c with
  | node l cs =>
    rw [Concrete.under]
    split
    · exact h
    · exact placed_node (l := { l with field := field }) h.start h.children

end Concrete

namespace Grammar
open Concrete

/-- That a list of nodes is placed. -/
def AllPlaced (chars : Array Char) (parts : Array Concrete) : Prop := ∀ c ∈ parts, c.Placed chars

theorem AllPlaced.append {parts more : Array Concrete} (h : AllPlaced chars parts) (hmore : AllPlaced chars more) :
    AllPlaced chars (parts ++ more) := by
  intro c hc
  rcases Array.mem_append.1 hc with hc | hc
  · exact h c hc
  · exact hmore c hc

theorem AllPlaced.push {parts : Array Concrete} (h : AllPlaced chars parts) {c : Concrete} (hc : c.Placed chars) :
    AllPlaced chars (parts.push c) := by
  intro d hd
  rcases Array.mem_push.1 hd with hd | rfl
  · exact h d hd
  · exact hc

theorem allPlaced_empty (chars : Array Char) : AllPlaced chars #[] := by
  intro c hc
  exact absurd hc (Array.not_mem_empty c)

theorem AllPlaced.toList {parts : Array Concrete} (h : AllPlaced chars parts) : ∀ c ∈ parts.toList, c.Placed chars :=
  fun c hc => h c (Array.mem_toList_iff.1 hc)

/-! Fragments. -/

structure Fragment.Placed (chars : Array Char) (f : Fragment) : Prop where
  start : f.start.Exact chars
  parts : AllPlaced chars f.parts

theorem Fragment.Placed.nodes {f : Fragment} (h : f.Placed chars) (step : Step) : AllPlaced chars (f.nodes step) := by
  unfold Fragment.nodes
  split
  · intro c hc
    obtain rfl := Array.mem_singleton.1 hc
    exact placed_node h.start h.parts.toList
  · split
    · intro c hc
      obtain ⟨d, hd, rfl⟩ := Array.mem_map.1 hc
      exact (h.parts d hd).under _
    · exact h.parts

structure Entry.Placed (chars : Array Char) (e : Entry) : Prop where
  fragment : e.fragment.Placed chars
  extras : AllPlaced chars e.extras

theorem placed_assemble_go {parts : Array Concrete} (hparts : AllPlaced chars parts) (steps : List Step)
    {entries : List Entry} (h : ∀ e ∈ entries, e.Placed chars) :
    AllPlaced chars (Version.assemble.go parts steps entries) := by
  induction steps generalizing parts entries with
  | nil =>
    unfold Version.assemble.go
    exact hparts
  | cons step steps ih =>
    cases entries with
    | nil => exact hparts
    | cons e es =>
      obtain ⟨he, hes⟩ := List.forall_mem_cons.1 h
      have hnodes := he.fragment.nodes step
      rw [Version.assemble.go]
      refine ih ?_ hes
      have hread : AllPlaced chars
          (if parts.isEmpty then e.fragment.nodes step else parts ++ e.fragment.nodes step) := by
        split
        · exact hnodes
        · exact hparts.append hnodes
      split
      · exact hread
      · exact hread.append he.extras

theorem placed_assemble {shown : Option Alias} {p : Production} {entries : List Entry} {here : Point}
    (hentries : ∀ e ∈ entries, e.Placed chars) (hhere : here.Exact chars) :
    (Version.assemble shown p entries here).Placed chars := by
  refine ⟨?_, placed_assemble_go (allPlaced_empty chars) _ hentries⟩
  cases entries with
  | nil => exact hhere
  | cons e es => exact (hentries e List.mem_cons_self).fragment.start

/-! Readings. -/

/-- That a lexeme starts at an exact point and stops in front of what follows it. -/
structure Lexeme.Placed (chars : Array Char) (l : Lexeme) : Prop where
  start : l.start.Exact chars
  stop : l.stop.Faces chars l.rest

structure Version.Placed (chars : Array Char) (v : Version) : Prop where
  stack : ∀ e ∈ v.stack, e.Placed chars
  leading : AllPlaced chars v.leading
  here : v.here.Faces chars v.rest

variable {g : Tables} {initial : ItemSet} {v : Version}

theorem Version.placed_start (text : List Char) : (start text).Placed text.toArray :=
  ⟨fun _ he => absurd he List.not_mem_nil, allPlaced_empty _, Point.faces_origin text⟩

theorem Version.Placed.addExtra (h : v.Placed chars) {c : Concrete} (hc : c.Placed chars) {l : Lexeme}
    (hl : l.Placed chars) : (v.addExtra c l).Placed chars := by
  obtain ⟨stack, depth, leading, here, rest, weight⟩ := v
  cases stack with
  | nil => exact ⟨h.stack, h.leading.push hc, hl.stop⟩
  | cons e below =>
    obtain ⟨he, hbelow⟩ := List.forall_mem_cons.1 h.stack
    refine ⟨?_, h.leading, hl.stop⟩
    exact List.forall_mem_cons.2 ⟨⟨he.fragment, he.extras.push hc⟩, hbelow⟩

theorem Version.Placed.push (h : v.Placed chars) (x : Symbol) {f : Fragment} (hf : f.Placed chars)
    {extras : Array Concrete} (hextras : AllPlaced chars extras) : (v.push g initial x f extras).Placed chars :=
  ⟨List.forall_mem_cons.2 ⟨⟨hf, hextras⟩, h.stack⟩, h.leading, h.here⟩

theorem Version.Placed.reduce (h : v.Placed chars) (i : Nat) : (v.reduce g initial i).Placed chars := by
  have htaken : ∀ e ∈ (v.stack.take (g.production i).steps.size).reverse, e.Placed chars :=
    fun e he => h.stack e (List.mem_of_mem_take (List.mem_reverse.1 he))
  have hleft : ∀ e ∈ v.stack.drop (g.production i).steps.size, e.Placed chars :=
    fun e he => h.stack e (List.mem_of_mem_drop he)
  have hextras : AllPlaced chars
      (((v.stack.take (g.production i).steps.size).reverse.getLast?.map (·.extras)).getD #[]) := by
    cases hlast : (v.stack.take (g.production i).steps.size).reverse.getLast? with
    | none => exact allPlaced_empty chars
    | some e => exact (htaken e (List.mem_of_getLast? hlast)).extras
  have hbelow : Version.Placed chars { v with
      stack := v.stack.drop (g.production i).steps.size
      depth := v.depth - (g.production i).steps.size
      weight := v.weight + (g.production i).weight } := ⟨hleft, h.leading, h.here⟩
  exact hbelow.push _ (placed_assemble htaken h.here.exact) hextras

theorem Version.Placed.shift (h : v.Placed chars) (t : Nat) {l : Lexeme} (hl : l.Placed chars) :
    (v.shift g initial t l).Placed chars := by
  have hread : Fragment.Placed chars ⟨g.symbols.tokens[t]?.bind (·.shown), l.start, l.stop, #[], 0⟩ :=
    ⟨hl.start, allPlaced_empty chars⟩
  have hpush : (v.push g initial (.terminal t) _ #[]).Placed chars := h.push _ hread (allPlaced_empty chars)
  exact ⟨hpush.stack, hpush.leading, hl.stop⟩

theorem Version.Placed.finished (h : v.Placed chars) {tree : Concrete} (htree : v.finished g = some tree) :
    tree.Placed chars := by
  obtain ⟨stack, depth, leading, here, rest, weight⟩ := v
  have hroot {l : Label} {children : Array Concrete} {start : Point} (hstart : start.Exact chars)
      (hchildren : AllPlaced chars children)
      (hl : l.start = (children[0]?.map (·.label.start)).getD start) :
      (node l children.toList).Placed chars := by
    refine placed_node ?_ hchildren.toList
    rw [hl]
    cases hfirst : children[0]? with
    | none => exact hstart
    | some c => exact (hchildren c (Array.mem_of_getElem? hfirst)).start
  rcases stack with _ | ⟨e, _ | ⟨e', stack⟩⟩
  · obtain rfl := Option.some.inj htree
    exact hroot h.here.exact h.leading rfl
  · have he := h.stack e List.mem_cons_self
    simp only [Version.finished] at htree
    split at htree
    · obtain rfl := Option.some.inj htree
      exact hroot he.fragment.start ((h.leading.append he.fragment.parts).append he.extras) rfl
    · cases htree
  · cases htree

/-! Steps of a reading. -/

inductive Advance.Placed (chars : Array Char) : Advance → Prop where
  | on {v : Version} (h : v.Placed chars) : Placed chars (.on v)
  | done {tree : Concrete} {weight : Int} (h : tree.Placed chars) : Placed chars (.done tree weight)

theorem placed_settle {l : Lexeme} (hl : l.Placed chars) (fuel : Nat) (h : v.Placed chars) :
    ∀ m ∈ settle g initial l fuel v, m.Placed chars := by
  induction fuel generalizing v with
  | zero => exact fun m hm => absurd hm List.not_mem_nil
  | succ fuel ih =>
    intro m hm
    unfold settle at hm
    extract_lets items asIs asWord terminal decision at hm
    split at hm
    · split at hm
      · obtain ⟨tree, htree, rfl⟩ := List.mem_map.1 hm
        exact .done (h.finished (Option.mem_toList.1 htree))
      · obtain ⟨i, -, hm⟩ := List.mem_flatMap.1 hm
        dsimp only at hm
        split at hm
        · next tree htree =>
          obtain rfl := List.mem_singleton.1 hm
          exact .done ((h.reduce i).finished htree)
        · exact ih (h.reduce i) m hm
    · rcases List.mem_append.1 hm with hm | hm
      · obtain ⟨i, -, hm⟩ := List.mem_flatMap.1 hm
        exact ih (h.reduce i) m hm
      · split at hm
        · obtain rfl := List.mem_singleton.1 hm
          exact .on (h.shift _ hl)
        · exact absurd hm List.not_mem_nil

/-- That a scanner reads lexemes in front of where it is asked to. -/
def Scanner.Faithful (chars : Array Char) (scanner : Scanner) : Prop :=
  ∀ expected here text l, here.Faces chars text → scanner.read expected here text = some l → l.Placed chars

variable {scanner : Scanner}

theorem placed_advanceOne (hscanner : scanner.Faithful chars) (h : v.Placed chars) :
    ∀ m ∈ advanceOne g scanner initial v, m.Placed chars := by
  intro m hm
  unfold advanceOne at hm
  split at hm
  · exact absurd hm List.not_mem_nil
  · next l hread =>
    have hl := hscanner _ _ _ l h.here hread
    split at hm
    · obtain rfl := List.mem_singleton.1 hm
      exact .on (h.addExtra (placed_node hl.start fun c hc => absurd hc List.not_mem_nil) hl)
    · exact placed_settle hl _ h m hm

theorem placed_insertVersion {vs : List Version} (hvs : ∀ w ∈ vs, w.Placed chars) (h : v.Placed chars) :
    ∀ w ∈ insertVersion v vs, w.Placed chars := by
  induction vs with
  | nil => exact List.forall_mem_singleton.2 h
  | cons u vs ih =>
    obtain ⟨hu, hvs⟩ := List.forall_mem_cons.1 hvs
    rw [insertVersion]
    split
    · refine List.forall_mem_cons.2 ⟨?_, hvs⟩
      split
      · exact h
      · exact hu
    · exact List.forall_mem_cons.2 ⟨hu, ih hvs⟩

theorem mem_of_takeEarliest {vs others : List Version} {w : Version} (h : takeEarliest vs = some (w, others)) :
    w ∈ vs ∧ ∀ u ∈ others, u ∈ vs := by
  induction vs generalizing w others with
  | nil => cases h
  | cons v vs ih =>
    rw [takeEarliest] at h
    split at h
    · obtain ⟨rfl, rfl⟩ := Prod.mk.inj (Option.some.inj h)
      exact ⟨List.mem_cons_self, fun u hu => List.mem_cons_of_mem _ hu⟩
    · next w' ws hrest =>
      obtain ⟨hw, hws⟩ := ih hrest
      split at h
      · obtain ⟨rfl, rfl⟩ := Prod.mk.inj (Option.some.inj h)
        exact ⟨List.mem_cons_of_mem _ hw, List.forall_mem_cons.2
          ⟨List.mem_cons_self, fun u hu => List.mem_cons_of_mem _ (hws u hu)⟩⟩
      · obtain ⟨rfl, rfl⟩ := Prod.mk.inj (Option.some.inj h)
        exact ⟨List.mem_cons_self, fun u hu => List.mem_cons_of_mem _ hu⟩

theorem placed_heavierTree {best : Option (Concrete × Int)} (hbest : ∀ b ∈ best, b.1.Placed chars) {tree : Concrete}
    (htree : tree.Placed chars) (weight : Int) : ∀ b ∈ heavierTree best tree weight, b.1.Placed chars := by
  intro b hb
  cases best with
  | none =>
    obtain rfl := Option.some.inj hb
    exact htree
  | some b' =>
    rw [heavierTree, Option.mem_def] at hb
    split at hb
    · obtain rfl := Option.some.inj hb
      exact htree
    · exact hbest b hb

theorem placed_followAll (hscanner : scanner.Faithful chars) (fuel : Nat) {vs : List Version}
    (hvs : ∀ w ∈ vs, w.Placed chars) {best : Option (Concrete × Int)} (hbest : ∀ b ∈ best, b.1.Placed chars) :
    ∀ b ∈ followAll g scanner initial fuel vs best, b.1.Placed chars := by
  induction fuel generalizing vs best with
  | zero => exact hbest
  | succ fuel ih =>
    rw [followAll]
    split
    · exact hbest
    · next v others hv =>
      obtain ⟨hmem, hothers⟩ := mem_of_takeEarliest hv
      have hmoves : ∀ m ∈ advanceOne g scanner initial v, m.Placed chars :=
        placed_advanceOne hscanner (hvs v hmem)
      apply ih
      · refine List.foldlRecOn (motive := fun vs => ∀ w ∈ vs, Version.Placed chars w) _ _ ?_ ?_
        · exact fun w hw => hvs w (hothers w hw)
        · intro vs hvs m hm
          cases hmoves m hm with
          | on h => exact placed_insertVersion hvs h
          | done h => exact hvs
      · refine List.foldlRecOn (motive := fun (best : Option (Concrete × Int)) => ∀ b ∈ best, b.1.Placed chars) _ _
          ?_ ?_
        · exact hbest
        · intro best hbest m hm
          cases hmoves m hm with
          | on h => exact hbest
          | done h => exact placed_heavierTree hbest h _

/-- The nodes of a parsed text start at exact points as long as its lexemes are read where they stand. -/
theorem placed_parse {text : List Char} (hscanner : scanner.Faithful text.toArray) {tree : Concrete}
    (h : parse g scanner text = some tree) : tree.Placed text.toArray := by
  obtain ⟨b, hb, rfl⟩ := Option.map_eq_some_iff.1 h
  have hstart : ∀ w ∈ [Version.start text], w.Placed text.toArray :=
    List.forall_mem_singleton.2 (Version.placed_start text)
  have hnone : ∀ b ∈ (none : Option (Concrete × Int)), b.1.Placed text.toArray := by simp
  exact placed_followAll hscanner _ hstart hnone b hb

/-! Lexemes. -/

namespace Lexeme

structure Match.Placed (chars : Array Char) (m : Match) : Prop where
  start : m.start.Exact chars
  stop : m.stop.Faces chars m.rest

theorem placed_longest {blank : Char → Bool} {fresh candidates : List Candidate} {skipping : Bool}
    {ranked : Option Int} {start here : Point} {best : Option Match} {text : List Char}
    (hstart : start.Exact chars) (hhere : here.Faces chars text) (hbest : ∀ m ∈ best, m.Placed chars) :
    ∀ m ∈ longest blank fresh candidates skipping ranked start here best text, m.Placed chars := by
  induction text generalizing candidates skipping ranked start here best with
  | nil =>
    unfold longest
    exact hbest
  | cons c rest ih =>
    unfold longest
    extract_lets moved skip rank follow next from_ more
    have hnext : next.Faces chars rest := hhere.after
    have hfrom : from_.Exact chars := by
      unfold from_
      split
      · exact hnext.exact
      · exact hstart
    split
    · exact hbest
    · split
      · exact ih hfrom hnext hbest
      · refine ih hfrom hnext fun m hm => ?_
        obtain rfl := Option.some.inj hm
        exact ⟨hfrom, hnext⟩

theorem placed_read {g : Tables} {blank : Char → Bool} {always : List Nat} {words : String → Option Nat}
    {expected : Terminals} {here : Point} {text : List Char} {l : Lexeme} (hhere : here.Faces chars text)
    (h : Lexeme.read g blank always words expected here text = some l) : l.Placed chars := by
  unfold Lexeme.read at h
  extract_lets isWord listed plain wanted tried shapes fresh all at h
  split at h
  · next m hm =>
    have hnone : ∀ m ∈ (none : Option Match), m.Placed chars := by simp
    have hplaced : m.Placed chars := placed_longest hhere.exact hhere hnone m hm
    extract_lets spelling keyword at h
    generalize keyword = found at h
    cases found with
    | some k =>
      obtain rfl := Option.some.inj h
      exact ⟨hplaced.start, hplaced.stop⟩
    | none =>
      obtain rfl := Option.some.inj h
      exact ⟨hplaced.start, hplaced.stop⟩
  · split at h
    · have hlast : (here.afterAll text).Faces chars [] := by
        apply Point.Faces.afterAll
        rwa [List.append_nil]
      obtain rfl := Option.some.inj h
      exact ⟨hlast.exact, hlast⟩
    · cases h

end Lexeme

end Grammar

namespace JavaScript
open Grammar

theorem placed_readLexeme {g : Tables} {marks : Marks} {words : Std.HashMap String Nat} {expected : Terminals}
    {here : Point} {text : List Char} {l : Lexeme} (hhere : here.Faces chars text)
    (h : readLexeme g marks words expected here text = some l) : l.Placed chars := by
  unfold readLexeme at h
  split at h
  · next terminal skipped length _ =>
    extract_lets start body at h
    obtain rfl := Option.some.inj h
    have hstart : start.Faces chars body := by
      apply Point.Faces.afterAll
      rwa [List.take_append_drop]
    have hstop : (start.afterAll (body.take length)).Faces chars (body.drop length) := by
      apply Point.Faces.afterAll
      rwa [List.take_append_drop]
    exact ⟨hstart.exact, hstop⟩
  · exact Lexeme.placed_read hhere h

/-- The nodes of the concrete tree for a source start at exact points. -/
theorem placed_parse? {source : String} {tree : Concrete} (h : parse? source = some tree) :
    tree.Placed source.toList.toArray :=
  placed_parse (fun _ _ _ _ hhere hread => placed_readLexeme hhere hread) h

end JavaScript

end PrototypeScan
