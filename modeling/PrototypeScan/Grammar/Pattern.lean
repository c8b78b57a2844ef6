/-!
Lexical patterns: sets of texts built from single characters. `Pattern.residues` lists what may still
follow once a character has been read, so any number of patterns can be matched in one pass over a
text without looking back.
-/
namespace PrototypeScan.Grammar

/-- A set of characters: inclusive ranges of code points, or everything outside of them. -/
structure CharSet where
  ranges : List (Nat × Nat)
  negated : Bool
  deriving DecidableEq, Repr

namespace CharSet

def ofRanges (ranges : List (Nat × Nat)) : CharSet := ⟨ranges, false⟩

def outside (ranges : List (Nat × Nat)) : CharSet := ⟨ranges, true⟩

/-- Single characters as one-element ranges. -/
def points (text : String) : List (Nat × Nat) := text.toList.map fun c => (c.toNat, c.toNat)

def ofString (text : String) : CharSet := ofRanges (points text)

def contains (s : CharSet) (c : Char) : Bool :=
  (s.ranges.any fun r => r.1 ≤ c.toNat && c.toNat ≤ r.2) != s.negated

end CharSet

/-- A pattern denotes a set of texts. -/
inductive Pattern where
  | done
  | one (set : CharSet)
  | seq (first second : Pattern)
  | either (first second : Pattern)
  | many (inner : Pattern)
  deriving DecidableEq, Repr

namespace Pattern

/-- Whether the empty text belongs to the pattern. -/
def nullable : Pattern → Bool
  | done => true
  | one _ => false
  | seq p q => p.nullable && q.nullable
  | either p q => p.nullable || q.nullable
  | many _ => true

/-- Sequencing that drops an empty first part. -/
def followedBy : Pattern → Pattern → Pattern
  | done, q => q
  | p, q => seq p q

/-- The patterns of what may follow after reading `c`; a text `c :: t` is matched when one of them
matches `t`. -/
def residues (c : Char) : Pattern → List Pattern
  | done => []
  | one s => if s.contains c then [done] else []
  | seq p q =>
    let left := (p.residues c).map (·.followedBy q)
    if p.nullable then left ++ q.residues c else left
  | either p q => p.residues c ++ q.residues c
  | many p => (p.residues c).map (·.followedBy (many p))

/-- Exactly one text. -/
def text (s : String) : Pattern :=
  match s.toList.map fun c => one (CharSet.ofString c.toString) with
  | [] => done
  | p :: ps => (p :: ps).foldr (fun a b => if b = done then a else seq a b) done

def oneOf (chars : String) : Pattern := one (CharSet.ofString chars)

def noneOf (chars : String) : Pattern := one (CharSet.outside (CharSet.points chars))

def range (low high : Char) : Pattern := one (CharSet.ofRanges [(low.toNat, high.toNat)])

/-- All parts one after the other. -/
def all : List Pattern → Pattern
  | [] => done
  | [p] => p
  | p :: ps => seq p (all ps)

/-- One of the alternatives; there is at least one. -/
def oneAmong (first : Pattern) (others : List Pattern) : Pattern :=
  others.foldl either first

def maybe (p : Pattern) : Pattern := either p done

def oneOrMore (p : Pattern) : Pattern := seq p (many p)

/-- At least `low` and at most `low + extra` repetitions. -/
def repeated (p : Pattern) : Nat → Nat → Pattern
  | 0, 0 => done
  | 0, extra + 1 => maybe (followedBy p (repeated p 0 extra))
  | low + 1, extra => followedBy p (repeated p low extra)

end Pattern

end PrototypeScan.Grammar
