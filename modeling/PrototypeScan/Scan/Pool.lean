/-!
Tasks of which several may be under way at the same time.
-/
namespace PrototypeScan

/-- Carries out tasks, at most so many of them at a time, and yields what they give. -/
abbrev Pool (α : Type) := Nat → List (Unit → α) → List α

namespace Pool

variable {α : Type}

/-- One task behind the other. Nothing is begun if no task may be under way. -/
def inTurn : Pool α
  | 0, _ => []
  | _ + 1, tasks => tasks.map (· ())

/-- Whatever task is done first, what the tasks give comes in their order. -/
def InOrder (pool : Pool α) : Prop := ∀ width tasks, 0 < width → pool width tasks = tasks.map (· ())

theorem inOrder_inTurn : (inTurn : Pool α).InOrder := by
  intro width tasks h
  cases width with
  | zero => cases h
  | succ width => rfl

end Pool

end PrototypeScan
