/-!
Concrete syntax trees: every token of a source and every rule that groups some, with the places where
they stand. Kinds and field names are a grammar's; nothing here depends on which grammar it is.
-/
namespace PrototypeScan

/-- A place in a source: how many characters precede it, how many line feeds precede it, and how many
characters precede the line it is on. -/
structure Point where
  offset : Nat
  row : Nat
  lineStart : Nat
  lineStart_le : lineStart ≤ offset := by omega
  deriving DecidableEq, Repr

namespace Point

def origin : Point where
  offset := 0
  row := 0
  lineStart := 0

instance : Inhabited Point := ⟨origin⟩

/-- The place after `c`; lines end at line feeds only. -/
def after (p : Point) (c : Char) : Point :=
  if c = '\n' then { offset := p.offset + 1, row := p.row + 1, lineStart := p.offset + 1 }
  else { p with offset := p.offset + 1, lineStart_le := Nat.le_succ_of_le p.lineStart_le }

def afterAll (p : Point) (text : List Char) : Point := text.foldl after p

end Point

/-- What a concrete node says of itself. A node is named when a grammar rule stands for it, and extra
when it may stand anywhere, as comments do. -/
structure Concrete.Label where
  kind : String
  named : Bool
  extra : Bool
  field : Option String
  start : Point
  /-- the offset behind its last character -/
  stop : Nat
  deriving DecidableEq, Repr

/-- A concrete syntax tree. -/
inductive Concrete where
  | node (label : Concrete.Label) (children : List Concrete)

namespace Concrete

def label : Concrete → Label
  | node l _ => l

def children : Concrete → List Concrete
  | node _ cs => cs

/-- The same node under a field, unless it is already under one or may stand anywhere. -/
def under (field : Option String) : Concrete → Concrete
  | node l cs =>
    if l.extra || l.field.isSome then node l cs else node { l with field := field } cs

/-- The characters of a source from a node's first to its last. -/
def text (source : Array Char) (c : Concrete) : String :=
  String.ofList (source.extract c.label.start.offset c.label.stop).toList

end Concrete

end PrototypeScan
