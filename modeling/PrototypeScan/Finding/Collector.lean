import PrototypeScan.Finding.Basic
import Std.Data.HashSet

/-!
Collecting findings: of findings with one key the first is kept, and a report lists them by line, those
of one line in the order in which they came. `firstOfEach` and `byLine` say this of a whole list;
`Collector` does it one finding at a time.
-/
namespace PrototypeScan

namespace Finding

/-- The findings whose key no earlier one has; keys in `seen` count as had. -/
def firstOfEachFrom (seen : List Key) : List Finding → List Finding
  | [] => []
  | f :: fs =>
    if f.key ∈ seen then firstOfEachFrom seen fs else f :: firstOfEachFrom (f.key :: seen) fs

/-- The first finding of each key, in order. -/
def firstOfEach (fs : List Finding) : List Finding := firstOfEachFrom [] fs

/-- Findings by line; those of one line stay in order. -/
def byLine (fs : List Finding) : List Finding := fs.mergeSort fun a b => a.line.le b.line

end Finding

/-- The keys met so far, the findings kept, the latest first, and how many were dropped. -/
structure Collector where
  seen : Std.HashSet Finding.Key
  latest : List Finding
  duplicates : Nat

namespace Collector

def empty : Collector := ⟨{}, [], 0⟩

/-- The findings kept, in the order in which they came. -/
def findings (c : Collector) : List Finding := c.latest.reverse

def size (c : Collector) : Nat := c.latest.length

def isEmpty (c : Collector) : Bool := c.latest.isEmpty

/-- Whether a finding with the same key is there already. -/
def has (c : Collector) (f : Finding) : Bool := c.seen.contains f.key

/-- Adds a finding unless one with its key is there. -/
def push (c : Collector) (f : Finding) : Collector :=
  if c.has f then { c with duplicates := c.duplicates + 1 }
  else { c with seen := c.seen.insert f.key, latest := f :: c.latest }

/-- Adds a finding in the same way, and says whether it was added. -/
def offer (c : Collector) (f : Finding) : Bool × Collector := (!c.has f, c.push f)

def extend (c : Collector) (fs : List Finding) : Collector := fs.foldl push c

/-- The findings kept, as a report lists them. -/
def finish (c : Collector) : List Finding := Finding.byLine c.findings

end Collector

end PrototypeScan
