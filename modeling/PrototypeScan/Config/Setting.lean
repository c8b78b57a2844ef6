import PrototypeScan.Number.Decimal
import PrototypeScan.Tree.Basic

/-!
Values that a source of settings gives, and how a later source is laid over an earlier one: tables are
joined entry by entry, everything else replaces what was there.
-/
namespace PrototypeScan

inductive Setting where
  | missing
  | bool (b : Bool)
  | integer (i : Int)
  | real (x : Binary64)
  | text (s : String)
  | list (items : List Setting)
  | table (entries : List (String × Setting))

namespace Setting

instance : Inhabited Setting := ⟨missing⟩

/-- The entries of a table; nothing else has any. -/
def entries : Setting → List (String × Setting)
  | table es => es
  | _ => []

def items : Setting → List Setting
  | list vs => vs
  | _ => []

mutual

/-- A value with a later one laid over it. -/
def overlay (old : Setting) : Setting → Setting
  | table es => table (overlayEntries old.entries es)
  | missing => missing
  | bool b => bool b
  | integer i => integer i
  | real x => real x
  | text s => text s
  | list vs => list vs

def overlayEntries (old : List (String × Setting)) :
    List (String × Setting) → List (String × Setting)
  | [] => old
  | e :: es => overlayEntries (overlayEntry old e) es

def overlayEntry (old : List (String × Setting)) : String × Setting → List (String × Setting)
  | (key, v) => Fields.upsert key (fun o => overlay (o.getD missing) v) old

end

/-- A step of the way to a setting: an entry of a table, or an item of a list, counted from its end if the
index is negative. -/
inductive Step where
  | key (name : String)
  | index (i : Int)
  deriving DecidableEq, Repr

/-- Where an index leads in a list: the list, made as long as it has to be, and the place in it. -/
def place (i : Int) (vs : List Setting) : List Setting × Nat :=
  if i ≥ 0 then (vs ++ List.replicate (i.toNat + 1 - vs.length) missing, i.toNat)
  else
    let back := i.natAbs
    if back ≤ vs.length then (vs, vs.length - back)
    else (List.replicate (back - vs.length) missing ++ vs, 0)

/-- Lays a value over what a way leads to. What is on the way becomes a table, or a list. -/
def assign (v : Setting) : List Step → Setting → Setting
  | [], old => old.overlay v
  | .key name :: steps, old =>
    table (Fields.upsert name (fun o => assign v steps (o.getD missing)) old.entries)
  | .index i :: steps, old =>
    let (vs, n) := place i old.items
    list (vs.modify n (assign v steps))

/-- Letters, digits, underscores and hyphens. -/
def isNameChar (c : Char) : Bool := c.isAlphanum || c = '_' || c = '-'

/-- The index in brackets. -/
def index? (text : List Char) : Option Int :=
  let inner := (text.dropWhile (· = ' ')).reverse.dropWhile (· = ' ') |>.reverse
  match inner with
  | '-' :: digits => (Decimal.ofDigits 10 digits).map (-·)
  | digits => (Decimal.ofDigits 10 digits).map (·)

/-- The steps that follow a name: names behind points, and indexes in brackets. -/
def moreSteps? : Nat → List Char → Option (List Step)
  | _, [] => some []
  | 0, _ => none
  | fuel + 1, '.' :: rest => match rest.takeWhile isNameChar with
    | [] => none
    | name => (moreSteps? fuel (rest.dropWhile isNameChar)).map (Step.key (String.ofList name) :: ·)
  | fuel + 1, '[' :: rest => do
    let i ← index? (rest.takeWhile (· ≠ ']'))
    let after ← (rest.dropWhile (· ≠ ']')).tail?
    let more ← moreSteps? fuel after
    return .index i :: more
  | _, _ => none

/-- The way that a key describes. A key that describes none is a name as it stands. -/
def way (key : String) : List Step :=
  let cs := key.toList
  let found := match cs.takeWhile isNameChar with
    | [] => none
    | name => (moreSteps? cs.length (cs.dropWhile isNameChar)).map (Step.key (String.ofList name) :: ·)
  found.getD [.key key]

/-- Lays a source, given by its top entries, over what there is. -/
def layer (old : Setting) (source : List (String × Setting)) : Setting :=
  source.foldl (fun acc e => assign e.2 (way e.1) acc) old

end Setting

end PrototypeScan
