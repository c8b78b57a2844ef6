import PrototypeScan.Grammar.Production

/-!
Item sets: what a parser may be in the middle of after reading part of a text. An item is a production
with a place in it and the terminals that may follow the whole; a set is kept as its kernel, and the
nonterminals that may start at its place stand beside it with the terminals that may follow each.
Sets are built when a parse reaches them, so no table of all of them is ever made.
-/
namespace PrototypeScan.Grammar

/-- A nonterminal that can begin where another one begins: the terminals that may follow it there,
and whether whatever follows the other one may follow it too. -/
structure Opening where
  head : Nat
  follow : Terminals
  inherits : Bool
  deriving DecidableEq, Repr

/-- A place in a ladder of binding strengths. -/
inductive Place where
  | level (name : String)
  | head (index : Nat)
  deriving DecidableEq, Repr

/-- A grammar ready for parsing. -/
structure Tables where
  symbols : Symbols
  productions : Array Production
  /-- the productions of each nonterminal -/
  byHead : Array (List Nat)
  /-- the productions that begin with each terminal -/
  onTerminal : Array (List Nat)
  /-- the productions that begin with each nonterminal -/
  onNonterminal : Array (List Nat)
  /-- the terminals that each nonterminal can begin with -/
  first : Array Terminals
  /-- the nonterminals that can begin where each nonterminal begins -/
  openings : Array (List Opening)
  ladders : List (List Place)
  start : Nat
  word : Nat
  /-- whether each nonterminal shows as a node, and the kind -/
  kinds : Array (Option String)
  /-- whether a nonterminal was made for a repeated body -/
  repeats : Array Bool

namespace Tables

/-- The terminal that stands for the end of the text. -/
def endOfText (g : Tables) : Nat := g.symbols.tokens.size

/-- Applies `f` until nothing changes, `fuel` times at most. -/
def untilStable {α : Type} [BEq α] (f : α → α) : Nat → α → α
  | 0, x => x
  | fuel + 1, x =>
    let y := f x
    if y == x then x else untilStable f fuel y

/-- Groups the numbers below `count` by `key`, in order. -/
def groupBy (count size : Nat) (key : Nat → Option Nat) : Array (List Nat) :=
  (List.range count).reverse.foldl
    (fun groups i => match key i with
      | some k => groups.modify k (i :: ·)
      | none => groups)
    (Array.replicate size [])

def firstOf (first : Array Terminals) : Symbol → Terminals
  | .terminal t => .only t
  | .nonterminal n => first.getD n .empty

/-- The terminals that each nonterminal can begin with. -/
def firstSets (count : Nat) (ps : Array Production) : Array Terminals :=
  let step (first : Array Terminals) : Array Terminals :=
    ps.foldl (fun acc p => match p.steps[0]? with
      | some s => acc.modify p.head (·.union (firstOf acc s.symbol))
      | none => acc) first
  untilStable (fun a => (step (a.map (⟨·⟩))).map (·.bits)) (count + 1) (Array.replicate count 0)
    |>.map (⟨·⟩)

/-- The openings of nonterminal `a`: itself, and what its productions can begin with. -/
def openingsOf (ps : Array Production) (byHead : Array (List Nat)) (first : Array Terminals)
    (count a : Nat) : List Opening :=
  let start : Array (Option (Nat × Bool)) := (Array.replicate count none).set! a (some (0, true))
  let step (table : Array (Option (Nat × Bool))) : Array (Option (Nat × Bool)) :=
    (List.range count).foldl (fun acc head => match table.getD head none with
      | none => acc
      | some (follow, inherits) =>
        (byHead.getD head []).foldl (fun acc i =>
          let steps := (ps.getD i default).steps
          match (steps[0]?.map (·.symbol) : Option Symbol) with
          | some (.nonterminal z) =>
            let (m, p) := match steps[1]? with
              | some next => ((firstOf first next.symbol).bits, false)
              | none => (follow, inherits)
            acc.modify z fun old => match old with
              | none => some (m, p)
              | some (m', p') => some (m ||| m', p || p')
          | _ => acc) acc) table
  let final := untilStable step (2 * count + 2) start
  (List.range count).filterMap fun head =>
    (final.getD head none).map fun x => ⟨head, ⟨x.1⟩, x.2⟩

/-- Prepares a grammar for parsing. -/
def ofGrammar (g : Grammar) : Tables :=
  let symbols := Symbols.ofGrammar g
  let count := symbols.nonterminalCount
  let ps := productionsOf g symbols
  let byHead := groupBy ps.size count fun i => ps[i]?.map (·.head)
  let begins (i : Nat) : Option Symbol := (ps[i]?.bind (·.steps[0]?)).map (·.symbol)
  let first := firstSets count ps
  let indexOf (name : String) : Nat := (symbols.rules.findIdx? (·.1 = name)).getD count
  { symbols
    productions := ps
    byHead
    onTerminal := groupBy ps.size symbols.tokens.size fun i => match begins i with
      | some (.terminal t) => some t
      | _ => none
    onNonterminal := groupBy ps.size count fun i => match begins i with
      | some (.nonterminal n) => some n
      | _ => none
    first
    openings := Array.ofFn fun (a : Fin count) => openingsOf ps byHead first count a
    ladders := g.ladders.map fun ladder => ladder.map fun
      | .level name => .level name
      | .rule name => .head (indexOf name)
    start := indexOf g.start
    word := (symbols.tokens.findIdx? (·.name = g.word)).getD 0
    kinds := Array.ofFn fun (i : Fin count) => match symbols.rules[i.val]? with
      | some r => if r.1.startsWith "_" || g.transparent.contains r.1 then none else some r.1
      | none => none
    repeats := Array.ofFn fun (i : Fin count) => decide (symbols.rules.size ≤ i.val) }

def production (g : Tables) (i : Nat) : Production := g.productions.getD i default

end Tables

/-- A production, how many of its steps have been read, and what may follow the whole. -/
structure Item where
  production : Nat
  dot : Nat
  follow : Terminals
  deriving DecidableEq, Repr

/-- A set of items: the kernel, and for each nonterminal the terminals that may follow it where it
starts at the place reached; none where it cannot start there. -/
structure ItemSet where
  kernel : List Item
  awaited : Array Terminals

namespace ItemSet

/-- The step that an item is in front of. -/
def nextStep (g : Tables) (i : Item) : Option Step := (g.production i.production).steps[i.dot]?

/-- Adds the nonterminals that open `head`, when `follow` may follow it. -/
def await (g : Tables) (head : Nat) (follow : Terminals) (awaited : Array Terminals) :
    Array Terminals :=
  (g.openings.getD head []).foldl
    (fun acc o => acc.modify o.head fun old =>
      old.union (if o.inherits then o.follow.union follow else o.follow))
    awaited

/-- The item set with the given kernel. -/
def ofKernel (g : Tables) (kernel : List Item) : ItemSet where
  kernel
  awaited := kernel.foldl (fun acc i =>
    let steps := (g.production i.production).steps
    match (steps[i.dot]?.map (·.symbol) : Option Symbol) with
    | some (.nonterminal n) =>
      let follow := match steps[i.dot + 1]? with
        | some next => Tables.firstOf g.first next.symbol
        | none => i.follow
      await g n follow acc
    | _ => acc) (Array.replicate g.symbols.nonterminalCount .empty)

/-- The set before anything has been read. -/
def initial (g : Tables) : ItemSet :=
  ofKernel g ((g.byHead.getD g.start []).map fun i => ⟨i, 0, .only g.endOfText⟩)

/-- The set after reading `x`. -/
def advance (g : Tables) (s : ItemSet) (x : Symbol) : ItemSet :=
  let moved := s.kernel.filterMap fun i =>
    if (nextStep g i).any (·.symbol = x) then some { i with dot := i.dot + 1 } else none
  let opened := match x with
    | .terminal t => g.onTerminal.getD t []
    | .nonterminal n => g.onNonterminal.getD n []
  ofKernel g (moved ++ opened.filterMap fun p =>
    let follow := s.awaited.getD (g.production p).head .empty
    if follow.isEmpty then none else some ⟨p, 1, follow⟩)

/-- The items whose production has been read in full. -/
def finished (g : Tables) (s : ItemSet) : List Item :=
  s.kernel.filter fun i => (nextStep g i).isNone

/-- The terminals that can be read next. -/
def shiftable (g : Tables) (s : ItemSet) : Terminals :=
  s.kernel.foldl (fun acc i => match nextStep g i with
    | some step => acc.union (Tables.firstOf g.first step.symbol)
    | none => acc) .empty

/-- The terminals that can come next, whether they are read at once or end a production first. -/
def expected (g : Tables) (s : ItemSet) : Terminals :=
  s.kernel.foldl (fun acc i => match nextStep g i with
    | some step => acc.union (Tables.firstOf g.first step.symbol)
    | none => acc.union i.follow) .empty

end ItemSet

end PrototypeScan.Grammar
