import Mathlib.Data.List.FinRange
import PrototypeScan.Proofs.Tree.Preorder

/-!
What a walk has yielded after any number of calls. The nodes yielded so far and the trees still pending make up the
preorder of the root, so a call takes one node off what is to come. Equal nodes may stand at several places of a tree;
a place, the positions of the children on the way down to it, tells them apart.
-/
namespace PrototypeScan

namespace Node

/-- The node at a place. -/
def at? : Node → List Nat → Option Node
  | n, [] => some n
  | n, i :: place => n.children[i]?.bind fun child => child.at? place

theorem size_le_listSize {ns : List Node} {n : Node} (h : n ∈ ns) : n.size ≤ listSize ns := by
  obtain ⟨front, back, rfl⟩ := List.append_of_mem h
  rw [listSize_append, listSize]
  omega

theorem size_lt_of_mem_children {n child : Node} (h : child ∈ n.children) : child.size < n.size := by
  have hle := size_le_listSize h
  rw [size_eq n]
  omega

/-- The places of a tree: the root, and then those below each child. -/
def places (n : Node) : List (List Nat) :=
  [] :: (List.finRange n.children.length).flatMap fun i => n.children[i].places.map (i.val :: ·)
termination_by n.size
decreasing_by exact size_lt_of_mem_children (List.getElem_mem _)

/-- That one place comes before another: a node before what is below it, and all that is below a child before what is
below a later one. -/
inductive Before : List Nat → List Nat → Prop where
  | below (place : List Nat) (i : Nat) (rest : List Nat) : Before place (place ++ i :: rest)
  | later (place : List Nat) {i j : Nat} (h : i < j) (front back : List Nat) :
      Before (place ++ i :: front) (place ++ j :: back)

theorem Before.cons {p q : List Nat} (h : Before p q) (i : Nat) : Before (i :: p) (i :: q) := by
  cases h with
  | below place j rest => exact .below (i :: p) j rest
  | later place hlt front back => exact .later (i :: place) hlt front back

theorem Before.ne {p q : List Nat} (h : Before p q) : p ≠ q := by
  intro heq
  cases h with
  | below place i rest => simp at heq
  | later place hlt front back =>
    have htails := List.append_cancel_left heq
    rw [List.cons.injEq] at htails
    omega

theorem mem_places {n : Node} {p : List Nat} : p ∈ n.places ↔ (n.at? p).isSome := by
  induction p generalizing n with
  | nil =>
    rw [places, at?]
    simp
  | cons i p ih =>
    rw [places, List.mem_cons, List.mem_flatMap, at?]
    constructor
    · rintro (hnil | ⟨j, -, hmem⟩)
      · cases hnil
      · obtain ⟨q, hq, hcons⟩ := List.mem_map.1 hmem
        obtain ⟨rfl, rfl⟩ := List.cons.inj hcons
        rw [List.getElem?_eq_getElem j.isLt, Option.bind_some]
        exact ih.1 hq
    · intro hsome
      obtain ⟨child, hchild⟩ := Option.isSome_iff_exists.1 (Option.isSome_of_isSome_bind hsome)
      obtain ⟨hlt, rfl⟩ := List.getElem?_eq_some_iff.1 hchild
      rw [hchild, Option.bind_some] at hsome
      exact .inr ⟨⟨i, hlt⟩, List.mem_finRange _, List.mem_map_of_mem (ih.2 hsome)⟩

theorem pairwise_places (n : Node) : n.places.Pairwise Before := by
  induction n using places.induct with
  | case1 n ih =>
    rw [places, List.pairwise_cons, List.pairwise_flatMap]
    refine ⟨fun p hp => ?_, fun i _ => ?_, ?_⟩
    · obtain ⟨i, -, hmem⟩ := List.mem_flatMap.1 hp
      obtain ⟨q, -, rfl⟩ := List.mem_map.1 hmem
      exact .below [] i q
    · exact List.pairwise_map.2 ((ih i).imp fun hbefore => hbefore.cons i)
    · refine (List.pairwise_lt_finRange _).imp fun {i j} hlt p hp q hq => ?_
      obtain ⟨front, -, rfl⟩ := List.mem_map.1 hp
      obtain ⟨back, -, rfl⟩ := List.mem_map.1 hq
      exact .later [] hlt front back

theorem nodup_places (n : Node) : n.places.Nodup := (pairwise_places n).imp Before.ne

/-- The preorder goes through the places. -/
theorem map_at?_places (n : Node) : n.places.map n.at? = n.preorder.map some := by
  induction n using places.induct with
  | case1 n ih =>
    have hchild (i : Fin n.children.length) :
        (n.children[i].places.map (i.val :: ·)).map n.at? = n.children[i].preorder.map some := by
      rw [← ih i, List.map_map]
      refine List.map_congr_left fun p _ => ?_
      rw [Function.comp_apply, at?, List.getElem?_eq_getElem i.isLt]
      rfl
    have hchildren : n.children.flatMap preorder =
        (List.finRange n.children.length).flatMap fun i => n.children[i].preorder := by
      conv_lhs => rw [← List.map_getElem_finRange n.children, List.flatMap_map]
      rfl
    rw [places, List.map_cons, List.map_flatMap, preorder_eq, List.map_cons, listPreorder_eq_flatMap, hchildren,
      List.map_flatMap]
    simp only [hchild, at?]

theorem length_listPreorder {ns : List Node} (h : ∀ n ∈ ns, n.preorder.length = n.size) :
    (listPreorder ns).length = listSize ns := by
  induction ns with
  | nil => rfl
  | cons n ns ih =>
    rw [listPreorder, listSize, List.length_append, h n List.mem_cons_self,
      ih fun m hm => h m (List.mem_cons_of_mem n hm)]

theorem length_preorder (n : Node) : n.preorder.length = n.size := by
  induction n using places.induct with
  | case1 n ih =>
    have hchildren : ∀ child ∈ n.children, child.preorder.length = child.size := by
      intro child hchild
      obtain ⟨i, hi, rfl⟩ := List.getElem_of_mem hchild
      exact ih ⟨i, hi⟩
    rw [preorder_eq, List.length_cons, length_listPreorder hchildren, size_eq, Nat.add_comm]

theorem length_places (n : Node) : n.places.length = n.size := by
  rw [← length_preorder, ← List.length_map (f := n.at?), map_at?_places, List.length_map]

end Node

namespace Walk

/-- The nodes that calls have yielded, and the walk behind them. -/
structure Progress where
  yielded : List Node
  walk : Walk

namespace Progress

/-- One more call. At the end of the walk it yields nothing and leaves the walk as it is. -/
def call (p : Progress) : Progress :=
  match p.walk.next? with
  | none => p
  | some (n, w) => ⟨p.yielded ++ [n], w⟩

/-- After a number of calls on the walk of a tree. -/
def after (root : Node) : Nat → Progress
  | 0 => ⟨[], start root⟩
  | k + 1 => (after root k).call

variable (root : Node) (k : Nat)

/-- What has been yielded and what is to come: a call moves the border only. -/
theorem yielded_append_upcoming_call (p : Progress) :
    p.call.yielded ++ p.call.walk.upcoming = p.yielded ++ p.walk.upcoming := by
  rw [call]
  split
  · rfl
  · next n w hnext => rw [upcoming_of_next? hnext, List.append_assoc, List.singleton_append]

theorem yielded_append_upcoming : (after root k).yielded ++ (after root k).walk.upcoming = root.preorder := by
  induction k with
  | zero => exact upcoming_start root
  | succ k ih => rw [after, yielded_append_upcoming_call, ih]

theorem length_upcoming_call (p : Progress) : p.call.walk.upcoming.length = p.walk.upcoming.length - 1 := by
  rw [call]
  split
  · next hnext => rw [upcoming_of_next?_eq_none hnext, List.length_nil]
  · next n w hnext => rw [upcoming_of_next? hnext, List.length_cons, Nat.add_sub_cancel]

theorem length_upcoming : (after root k).walk.upcoming.length = root.size - k := by
  induction k with
  | zero => rw [after, upcoming_start, Node.length_preorder, Nat.sub_zero]
  | succ k ih => rw [after, length_upcoming_call, ih, Nat.sub_sub]

theorem length_yielded : (after root k).yielded.length = min k root.size := by
  have hall := congrArg List.length (yielded_append_upcoming root k)
  rw [List.length_append, length_upcoming, Node.length_preorder] at hall
  omega

theorem yielded_eq_take : (after root k).yielded = root.preorder.take k := by
  have hprefix : (after root k).yielded <+: root.preorder := ⟨_, yielded_append_upcoming root k⟩
  rw [List.prefix_iff_eq_take.1 hprefix, length_yielded, ← Node.length_preorder]
  exact List.take_eq_take_iff.2 (by omega)

theorem next?_eq_none_iff : (after root k).walk.next? = none ↔ root.size ≤ k := by
  rw [← Nat.sub_eq_zero_iff_le, ← length_upcoming, List.length_eq_zero_iff]
  constructor
  · exact upcoming_of_next?_eq_none
  · intro hnil
    cases hnext : (after root k).walk.next? with
    | none => rfl
    | some next =>
      rw [upcoming_of_next? hnext] at hnil
      cases hnil

/-- A walk after any number of calls. What it has yielded, and after it the trees still pending, is the preorder of the
root. Each call has yielded the node at the next of the places of the tree, which are all its places, each once, a node
before those below it and what is below a child before what is below a later one. The walk ends after as many calls as
the tree has nodes. -/
theorem after_exact (root : Node) (k : Nat) :
    let p := after root k
    p.yielded ++ p.walk.pending.flatMap Node.preorder = root.preorder ∧
      p.yielded.map some = (root.places.take k).map root.at? ∧
      (∀ place, place ∈ root.places ↔ (root.at? place).isSome) ∧
      root.places.Nodup ∧ root.places.Pairwise Node.Before ∧ root.places.length = root.size ∧
      p.yielded.length = min k root.size ∧
      (p.walk.next? = none ↔ root.size ≤ k) := by
  refine ⟨?_, ?_, fun _ => Node.mem_places, Node.nodup_places root, Node.pairwise_places root, Node.length_places root,
    length_yielded root k, next?_eq_none_iff root k⟩
  · rw [← Node.listPreorder_eq_flatMap]
    exact yielded_append_upcoming root k
  · rw [yielded_eq_take, List.map_take, List.map_take, Node.map_at?_places]

end Progress

end Walk

end PrototypeScan
