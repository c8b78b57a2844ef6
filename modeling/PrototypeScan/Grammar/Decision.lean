import PrototypeScan.Grammar.ItemSet

/-!
What a parser does at a terminal: read it, or end one of the productions read so far. Where several
are possible the grammar's ladders and associativities settle most cases, and what they leave open is
followed up in parallel.
-/
namespace PrototypeScan.Grammar

/-- How tightly a reading binds: its level, and the rules that stand for it. -/
structure Strength where
  level : Level
  heads : List Nat
  deriving DecidableEq

namespace Strength

def isAt (s : Strength) : Place → Bool
  | .level name => s.level = .named name
  | .head i => s.heads.contains i

/-- The order of two strengths on one ladder, where it places both; tighter is greater. -/
def onLadder (a b : Strength) : Bool → Bool → List Place → Option Ordering
  | _, _, [] => none
  | seenA, seenB, p :: rest =>
    if a.isAt p then if seenB then some .lt else onLadder a b true seenB rest
    else if b.isAt p then if seenA then some .gt else onLadder a b seenA true rest
    else onLadder a b seenA seenB rest

/-- Numbers compare as numbers, an unstated level as zero; everything else by the first ladder that
places both sides. -/
def compare (ladders : List (List Place)) (a b : Strength) : Ordering :=
  let placed := (ladders.findSome? (onLadder a b false false)).getD .eq
  match a.level, b.level with
  | .number x, .number y => if x ≠ 0 ∨ y ≠ 0 then Ord.compare x y else placed
  | .number x, .unstated => if x ≠ 0 then Ord.compare x 0 else placed
  | .unstated, .number y => if y ≠ 0 then Ord.compare 0 y else placed
  | _, _ => placed

end Strength

/-- What may be done at a terminal. -/
structure Decision where
  /-- productions to end -/
  reduce : List Nat
  /-- whether to read the terminal -/
  shift : Bool
  deriving DecidableEq, Repr

namespace Decision

/-- The last step of a production: the one its level and associativity are read from. -/
def lastStep (p : Production) : Option Step := p.steps.back?

/-- Productions that can end, of equal strength, with the strength and the groupings they share. -/
structure Ending where
  productions : List Nat
  strength : Strength
  groupings : List (Option Associativity)

/-- Adds a production that can end; a tighter one drives out the others. -/
def Ending.add (g : Tables) (found : Option Ending) (i : Nat) : Option Ending :=
  let p := g.production i
  let level := (lastStep p).elim .unstated (·.level)
  let grouping := (lastStep p).bind (·.associativity)
  let alone : Ending := ⟨[i], ⟨level, [p.head]⟩, [grouping]⟩
  match found with
  | none => some alone
  | some e => match Strength.compare g.ladders ⟨level, [p.head]⟩ e.strength with
    | .gt => some alone
    | .eq => some ⟨e.productions ++ [i], ⟨level, p.head :: e.strength.heads⟩, grouping :: e.groupings⟩
    | .lt => some e

/-- Chooses between ending `e` and reading the terminal `t` next. `going` are the items that are in
the middle of something which `t` continues. If all involved belong to one repetition, it is ended:
its two halves are put together from the left. -/
def choose (g : Tables) (e : Ending) (going : List Item) (ending : List Item) : Decision :=
  let headOf (i : Item) : Nat := (g.production i.production).head
  let heads := ((going ++ ending).map headOf).eraseDups
  let repetition := match heads with
    | [h] => g.repeats.getD h false
    | _ => false
  if repetition then ⟨e.productions, false⟩
  else
    let orders := going.map fun i =>
      let before := (g.production i.production).steps[i.dot - 1]?
      Strength.compare g.ladders ⟨before.elim .unstated (·.level), [headOf i]⟩ e.strength
    let tighter := orders.contains .gt
    let looser := orders.contains .lt
    if tighter && !looser then ⟨[], true⟩
    else if looser && !tighter then ⟨e.productions, false⟩
    else if tighter then ⟨e.productions, true⟩
    else if e.groupings.all (· = some .left) then ⟨e.productions, false⟩
    else if e.groupings.all (· = some .right) then ⟨[], true⟩
    else ⟨e.productions, true⟩

/-- What can be done in `s` when terminal `t` comes next. -/
def make (g : Tables) (s : ItemSet) (t : Nat) : Decision :=
  let ending := (s.finished g).filter (·.follow.contains t)
  let shift := (s.shiftable g).contains t
  match ending.foldl (fun acc i => Ending.add g acc i.production) none with
  | none => ⟨[], shift⟩
  | some e =>
    if shift then
      let going := s.kernel.filter fun i => i.dot > 0 &&
        (ItemSet.nextStep g i).any fun step => (Tables.firstOf g.first step.symbol).contains t
      choose g e going ending
    else ⟨e.productions, false⟩

end Decision

end PrototypeScan.Grammar
