import PrototypeScan.Number.Binary64

/-!
JSON values. Objects keep their entries in order. Numbers are integers of up
to 64 bits, or doubles.
-/
namespace PrototypeScan

inductive Json.Number where
  | integer (i : Int)
  | real (x : Binary64)
  deriving DecidableEq, Repr

inductive Json where
  | null
  | bool (b : Bool)
  | number (n : Json.Number)
  | string (s : String)
  | array (items : List Json)
  | object (entries : List (String × Json))

namespace Json

/-- The double nearest to a number. -/
def Number.toBinary64 : Number → Binary64
  | integer i => .ofInt i
  | real x => x

/-- Sets an entry: a key that is there keeps its place. -/
def setEntry (key : String) (v : Json) : List (String × Json) → List (String × Json)
  | [] => [(key, v)]
  | (k, w) :: rest => if k = key then (k, v) :: rest else (k, w) :: setEntry key v rest

mutual

/-- The value with one entry for each key of an object. -/
def merged : Json → Json
  | array items => array (mergedItems items)
  | object entries => object (mergedEntries [] entries)
  | null => null
  | bool b => bool b
  | number n => number n
  | string s => string s

def mergedItems : List Json → List Json
  | [] => []
  | v :: vs => merged v :: mergedItems vs

/-- Adds entries to those found before. -/
def mergedEntries (before : List (String × Json)) : List (String × Json) → List (String × Json)
  | [] => before
  | e :: es => mergedEntries (mergedEntry before e) es

def mergedEntry (before : List (String × Json)) : String × Json → List (String × Json)
  | (key, v) => setEntry key (merged v) before

end

/-- The value of a key. -/
def entry? (key : String) : List (String × Json) → Option Json
  | [] => none
  | (k, v) :: rest => if k = key then some v else entry? key rest

/-- The value of a key of an object. -/
def get? (key : String) : Json → Option Json
  | object entries => entry? key entries
  | _ => none

def asString? : Json → Option String
  | string s => some s
  | _ => none

def asBool? : Json → Option Bool
  | bool b => some b
  | _ => none

def asArray? : Json → Option (List Json)
  | array items => some items
  | _ => none

/-- The value of an integer that is not negative. -/
def asNat? : Json → Option Nat
  | number (.integer i) => if i < 0 then none else some i.toNat
  | _ => none

def ofNat (n : Nat) : Json := number (.integer n)

end Json

end PrototypeScan
