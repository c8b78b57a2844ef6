import PrototypeScan.Text.Units

/-!
A counter that goes on from the last place measures a line as if it had started at the line's beginning. All this
asks for is that units add up from place to place.
-/
namespace PrototypeScan.Text

theorem unitsBetween_self (source : Array Char) (a : Nat) : unitsBetween source a a = 0 := by
  simp [unitsBetween]

theorem unitsBetween_add (source : Array Char) {a b c : Nat} (hab : a ≤ b) (hbc : b ≤ c) :
    unitsBetween source a b + unitsBetween source b c = unitsBetween source a c := by
  rw [unitsBetween, unitsBetween, ← units_append, ← Array.toList_append, unitsBetween]
  have h : source.extract a b ++ source.extract b c = source.extract a c := by
    rw [Array.extract_append_extract, Nat.min_eq_left hab, Nat.max_eq_right hbc]
  rw [h]

/-- That units add up, as far as offsets are places. -/
def AddsUp (between : Nat → Nat → Nat) (isPlace : Nat → Prop) : Prop :=
  ∀ ⦃a b c⦄, isPlace a → isPlace b → isPlace c → a ≤ b → b ≤ c → between a b + between b c = between a c

theorem addsUp_unitsBetween (source : Array Char) : AddsUp (unitsBetween source) fun _ => True :=
  fun _ _ _ _ _ _ => unitsBetween_add source

namespace UnitCounter

/-- That a counter is at a place, and has counted what lies between the start of its line and this place. -/
structure ExactBy (between : Nat → Nat → Nat) (isPlace : Nat → Prop) (k : UnitCounter) : Prop where
  isPlace_lineStart : isPlace k.lineStart
  isPlace_offset : isPlace k.offset
  lineStart_le : k.lineStart ≤ k.offset
  counted_eq : k.counted = between k.lineStart k.offset

section General

variable {between : Nat → Nat → Nat} {isPlace : Nat → Prop} {k : UnitCounter} {lineStart offset : Nat}

theorem exactBy_start (hadd : AddsUp between isPlace) (h : isPlace 0) : start.ExactBy between isPlace := by
  have hself := hadd h h h (Nat.le_refl 0) (Nat.le_refl 0)
  refine ⟨h, h, Nat.le_refl 0, ?_⟩
  simp only [start]
  omega

theorem counted_moveBy (hadd : AddsUp between isPlace) (hk : k.ExactBy between isPlace) (hplace : isPlace offset) :
    (k.moveBy between lineStart offset).counted = between lineStart offset := by
  unfold moveBy
  by_cases hnew : lineStart ≠ k.lineStart ∨ offset < k.offset
  · simp [hnew]
  · obtain ⟨hline, hoffset⟩ : lineStart = k.lineStart ∧ k.offset ≤ offset := by omega
    simp only [hnew, if_false]
    rw [hk.counted_eq, hline, hadd hk.isPlace_lineStart hk.isPlace_offset hplace hk.lineStart_le hoffset]

theorem exactBy_moveBy (hadd : AddsUp between isPlace) (hk : k.ExactBy between isPlace) (hline : isPlace lineStart)
    (hplace : isPlace offset) (h : lineStart ≤ offset) :
    (k.moveBy between lineStart offset).ExactBy between isPlace :=
  ⟨hline, hplace, h, counted_moveBy hadd hk hplace⟩

end General

/-! In a source all offsets are places. -/

/-- What a counter has counted is what lies between the start of its line and its place. -/
structure Exact (source : Array Char) (k : UnitCounter) : Prop where
  lineStart_le : k.lineStart ≤ k.offset
  counted_eq : k.counted = unitsBetween source k.lineStart k.offset

theorem exact_start (source : Array Char) : start.Exact source :=
  ⟨Nat.le_refl 0, (unitsBetween_self source 0).symm⟩

theorem counted_moveTo {source : Array Char} {k : UnitCounter} {lineStart offset : Nat}
    (hk : k.Exact source) :
    (k.moveTo source lineStart offset).counted = unitsBetween source lineStart offset :=
  counted_moveBy (addsUp_unitsBetween source) ⟨trivial, trivial, hk.lineStart_le, hk.counted_eq⟩ trivial

theorem exact_moveTo {source : Array Char} {k : UnitCounter} {lineStart offset : Nat}
    (hk : k.Exact source) (h : lineStart ≤ offset) :
    (k.moveTo source lineStart offset).Exact source :=
  ⟨h, counted_moveTo hk⟩

end UnitCounter

end PrototypeScan.Text
