import PrototypeScan.Concrete.Basic
import PrototypeScan.Text.Units

/-!
The lines of a script. They end at line feeds, at line and paragraph separators and at carriage returns, where
a carriage return with a line feed behind it ends no line of its own. Points count line feeds only.
-/
namespace PrototypeScan

namespace Text

/-- Whether a line feed stands at an offset. -/
def isLineFeed (chars : Array Char) (i : Nat) : Bool := chars[i]? = some '\n'

/-- Whether a line of a script ends with the character at an offset though that is no line feed. -/
def endsLineOtherwise (chars : Array Char) (i : Nat) : Bool :=
  chars[i]? = some (Char.ofNat 0x2028) || chars[i]? = some (Char.ofNat 0x2029) ||
    (chars[i]? = some '\r' && chars[i + 1]? ≠ some '\n')

/-- Whether a line of a script ends with the character at an offset. -/
def endsLine (chars : Array Char) (i : Nat) : Bool := isLineFeed chars i || endsLineOtherwise chars i

/-- How many lines end in front of an offset. -/
def linesBefore (ends : Nat → Bool) (offset : Nat) : Nat := (List.range offset).countP ends

/-- Where the line of an offset starts: behind the last end of a line in front of it. -/
def lineStart (ends : Nat → Bool) : Nat → Nat
  | 0 => 0
  | i + 1 => if ends i then i + 1 else lineStart ends i

theorem linesBefore_succ (ends : Nat → Bool) (i : Nat) :
    linesBefore ends (i + 1) = linesBefore ends i + if ends i then 1 else 0 := by
  rw [linesBefore, List.range_succ, List.countP_append, List.countP_singleton, linesBefore]

theorem linesBefore_le (ends : Nat → Bool) (offset : Nat) : linesBefore ends offset ≤ offset := by
  have hle := List.countP_le_length (p := ends) (l := List.range offset)
  rwa [List.length_range] at hle

theorem lineStart_congr {p q : Nat → Bool} {offset : Nat} (h : ∀ i < offset, p i = q i) :
    lineStart p offset = lineStart q offset := by
  induction offset with
  | zero => rfl
  | succ i ih =>
    have hbefore := ih fun j hj => h j (Nat.lt_succ_of_lt hj)
    rw [lineStart, lineStart, h i (Nat.lt_succ_self i), hbefore]

theorem linesBefore_eq_zero_iff {p : Nat → Bool} {offset : Nat} :
    linesBefore p offset = 0 ↔ ∀ i < offset, p i = false := by
  rw [linesBefore, List.countP_eq_zero]
  simp only [List.mem_range, Bool.not_eq_true]

/-- The character at an offset ends a line in one way. -/
theorem isLineFeed_of_endsLineOtherwise {chars : Array Char} {i : Nat}
    (h : endsLineOtherwise chars i = true) : isLineFeed chars i = false := by
  refine Bool.eq_false_iff.2 fun hfeed => ?_
  have hchar : chars[i]? = some '\n' := by simpa [isLineFeed] using hfeed
  rw [endsLineOtherwise, hchar] at h
  exact absurd h (by simp)

theorem linesBefore_endsLine (chars : Array Char) (offset : Nat) :
    linesBefore (endsLine chars) offset =
      linesBefore (isLineFeed chars) offset + linesBefore (endsLineOtherwise chars) offset := by
  induction offset with
  | zero => rfl
  | succ i ih =>
    rw [linesBefore_succ, linesBefore_succ, linesBefore_succ, ih, endsLine]
    cases hother : endsLineOtherwise chars i with
    | false =>
      rw [Bool.or_false, if_neg Bool.false_ne_true]
      omega
    | true =>
      have hfeed := isLineFeed_of_endsLineOtherwise hother
      rw [hfeed, Bool.false_or, if_neg Bool.false_ne_true, if_pos rfl]
      omega

/-- Up to an offset in front of which lines end at line feeds only, these are the lines. -/
theorem lineStart_endsLine {chars : Array Char} {offset : Nat}
    (h : ∀ i < offset, endsLineOtherwise chars i = false) :
    lineStart (endsLine chars) offset = lineStart (isLineFeed chars) offset := by
  refine lineStart_congr fun i hi => ?_
  rw [endsLine, h i hi, Bool.or_false]

end Text

namespace Point
open Text

variable {chars : Array Char} {p : Point}

/-- That a point in a source tells by how many line feeds it is preceded, and where its line starts by them. -/
structure Exact (chars : Array Char) (p : Point) : Prop where
  offset_le : p.offset ≤ chars.size
  row_eq : p.row = linesBefore (isLineFeed chars) p.offset
  lineStart_eq : p.lineStart = Text.lineStart (isLineFeed chars) p.offset

instance : Decidable (p.Exact chars) :=
  decidable_of_iff
    (p.offset ≤ chars.size ∧ p.row = linesBefore (isLineFeed chars) p.offset ∧
      p.lineStart = Text.lineStart (isLineFeed chars) p.offset)
    ⟨fun h => ⟨h.1, h.2.1, h.2.2⟩, fun h => ⟨h.offset_le, h.row_eq, h.lineStart_eq⟩⟩

theorem exact_origin (chars : Array Char) : origin.Exact chars := ⟨Nat.zero_le _, rfl, rfl⟩

theorem Exact.after {c : Char} (h : p.Exact chars) (hc : chars[p.offset]? = some c) :
    (p.after c).Exact chars := by
  have hlt : p.offset < chars.size := (Array.getElem?_eq_some_iff.1 hc).1
  have hfeed : isLineFeed chars p.offset = decide (c = '\n') := by
    rw [isLineFeed, hc]
    simp
  have hrow := linesBefore_succ (isLineFeed chars) p.offset
  unfold Point.after
  split
  · next heq =>
    refine ⟨hlt, ?_, ?_⟩
    · rw [hrow, hfeed, heq, ← h.row_eq]
      rfl
    · rw [Text.lineStart, hfeed, heq]
      rfl
  · next hne =>
    have hother : decide (c = '\n') = false := decide_eq_false hne
    refine ⟨hlt, ?_, ?_⟩
    · rw [hrow, hfeed, hother, ← h.row_eq]
      rfl
    · rw [Text.lineStart, hfeed, hother, if_neg Bool.false_ne_true, ← h.lineStart_eq]

/-- That a point is exact and a text follows it. -/
structure Faces (chars : Array Char) (p : Point) (text : List Char) : Prop where
  exact : p.Exact chars
  drop_eq : chars.toList.drop p.offset = text

theorem faces_origin (text : List Char) : origin.Faces text.toArray text := ⟨exact_origin _, rfl⟩

theorem offset_after (p : Point) (c : Char) : (p.after c).offset = p.offset + 1 := by
  unfold Point.after
  split <;> rfl

theorem Faces.after {c : Char} {text : List Char} (h : p.Faces chars (c :: text)) :
    (p.after c).Faces chars text := by
  have hc : chars[p.offset]? = some c := by
    rw [← Array.getElem?_toList, ← List.head?_drop, h.drop_eq]
    rfl
  refine ⟨h.exact.after hc, ?_⟩
  rw [offset_after, ← List.drop_drop, h.drop_eq]
  rfl

theorem Faces.afterAll {text rest : List Char} (h : p.Faces chars (text ++ rest)) :
    (p.afterAll text).Faces chars rest := by
  induction text generalizing p with
  | nil => exact h
  | cons c text ih => exact ih h.after

end Point

end PrototypeScan
