/-!
Text measured in UTF-16 code units, and a counter that measures places on a line from the last place it
was asked for where it can.
-/
namespace PrototypeScan.Text

/-- The code units of a character. -/
def charUnits (c : Char) : Nat := if c.toNat < 0x10000 then 1 else 2

/-- The code units of a text. -/
def units : List Char → Nat
  | [] => 0
  | c :: cs => charUnits c + units cs

/-- The code units of a source between two offsets. -/
def unitsBetween (source : Array Char) (start stop : Nat) : Nat :=
  units (source.extract start stop).toList

@[simp] theorem units_nil : units [] = 0 := rfl

@[simp] theorem units_append (a b : List Char) : units (a ++ b) = units a + units b := by
  induction a with
  | nil => simp
  | cons c a ih => simp [units, ih, Nat.add_assoc]

/-- The place counted last: the start of its line, its offset, and the units between them. -/
structure UnitCounter where
  lineStart : Nat
  offset : Nat
  counted : Nat
  deriving DecidableEq, Repr

namespace UnitCounter

def start : UnitCounter := ⟨0, 0, 0⟩

/-- Moves the counter to a place, by what is said of the units between two offsets. Counting goes on from the last
place if that is on the same line and not behind the new one. -/
def moveBy (between : Nat → Nat → Nat) (k : UnitCounter) (lineStart offset : Nat) : UnitCounter :=
  let k := if lineStart ≠ k.lineStart ∨ offset < k.offset then ⟨lineStart, lineStart, 0⟩ else k
  ⟨lineStart, offset, k.counted + between k.offset offset⟩

/-- Moves the counter to a place in a source. -/
def moveTo (k : UnitCounter) (source : Array Char) : Nat → Nat → UnitCounter := k.moveBy (unitsBetween source)

end UnitCounter

end PrototypeScan.Text
