import PrototypeScan.Grammar.Decision
import PrototypeScan.Grammar.Lexeme

/-!
Parsing. Readings of a text that the grammar leaves open are followed side by side, each with a stack
of its own; two that have read the same symbols up to the same place are one from there on, the heavier
one. A text belongs to the grammar when some reading ends with it.
-/
namespace PrototypeScan.Grammar

/-- What has been read for one symbol: a node in the making, or the nodes of a rule that shows none. -/
structure Fragment where
  shown : Option Alias
  start : Point
  stop : Point
  parts : Array Concrete
  weight : Int

namespace Fragment

/-- The nodes of a fragment at a step: the step's name goes before the fragment's own, and the step's
field is for the nodes that have none. -/
def nodes (step : Step) (f : Fragment) : Array Concrete :=
  match step.shown.or f.shown with
  | some a => #[.node ⟨a.name, a.named, false, step.field, f.start, f.stop.offset⟩ f.parts.toList]
  | none => if step.field.isSome then f.parts.map (·.under step.field) else f.parts

end Fragment

/-- A symbol on the stack, the items it leads to, and what may stand anywhere and follows it. -/
structure Entry where
  symbol : Symbol
  items : ItemSet
  fragment : Fragment
  extras : Array Concrete

/-- One reading of the text so far. -/
structure Version where
  /-- the innermost symbol first -/
  stack : List Entry
  depth : Nat
  /-- what may stand anywhere and precedes everything -/
  leading : Array Concrete
  here : Point
  rest : List Char
  weight : Int

namespace Version

def start (text : List Char) : Version := ⟨[], 0, #[], .origin, text, 0⟩

def items (initial : ItemSet) (v : Version) : ItemSet := (v.stack.head?.map (·.items)).getD initial

/-- Adds a node that may stand anywhere. -/
def addExtra (v : Version) (c : Concrete) (l : Lexeme) : Version :=
  let v := { v with here := l.stop, rest := l.rest }
  match v.stack with
  | [] => { v with leading := v.leading.push c }
  | e :: below => { v with stack := { e with extras := e.extras.push c } :: below }

/-- Puts a symbol on the stack. -/
def push (g : Tables) (initial : ItemSet) (v : Version) (x : Symbol) (f : Fragment)
    (extras : Array Concrete) : Version :=
  { v with
    stack := ⟨x, (v.items initial).advance g x, f, extras⟩ :: v.stack
    depth := v.depth + 1 }

/-- The fragment of a production whose symbols are `entries`, in order. What may stand anywhere
between two of them becomes part of it. -/
def assemble (shown : Option Alias) (p : Production) (entries : List Entry) (here : Point) :
    Fragment :=
  let parts := go #[] p.steps.toList entries
  { shown
    start := (entries.head?.map (·.fragment.start)).getD here
    stop := (entries.getLast?.map (·.fragment.stop)).getD here
    parts
    weight := entries.foldl (fun w e => w + e.fragment.weight) p.weight }
where
  go (parts : Array Concrete) : List Step → List Entry → Array Concrete
    | step :: steps, e :: es =>
      let parts := if parts.isEmpty then e.fragment.nodes step else parts ++ e.fragment.nodes step
      go (if es.isEmpty then parts else parts ++ e.extras) steps es
    | _, _ => parts

/-- Replaces the symbols of a production on top of the stack by its head. -/
def reduce (g : Tables) (initial : ItemSet) (v : Version) (i : Nat) : Version :=
  let p := g.production i
  let count := p.steps.size
  let entries := (v.stack.take count).reverse
  let shown := ((g.kinds.getD p.head none).map fun k => (⟨k, true⟩ : Alias))
  let fragment := assemble shown p entries v.here
  let extras := (entries.getLast?.map (·.extras)).getD #[]
  let below := { v with
    stack := v.stack.drop count
    depth := v.depth - count
    weight := v.weight + p.weight }
  below.push g initial (.nonterminal p.head) fragment extras

/-- Reads a terminal. -/
def shift (g : Tables) (initial : ItemSet) (v : Version) (t : Nat) (l : Lexeme) : Version :=
  let shown := g.symbols.tokens[t]?.bind (·.shown)
  let read := v.push g initial (.terminal t) ⟨shown, l.start, l.stop, #[], 0⟩ #[]
  { read with here := l.stop, rest := l.rest }

/-- The same symbols, read up to the same place. -/
def agrees (v w : Version) : Bool :=
  v.here.offset == w.here.offset && v.depth == w.depth &&
    v.stack.map (·.symbol) == w.stack.map (·.symbol)

/-- The finished tree, if only the start symbol is left: everything that may stand anywhere before
and behind it belongs to it. -/
def finished (g : Tables) (v : Version) : Option Concrete :=
  let kind := (g.kinds.getD g.start none).getD ""
  let build (start stop : Point) (children : Array Concrete) : Concrete :=
    let first := (children[0]?.map (·.label.start)).getD start
    let last := match children.back? with
      | some c => max c.label.stop stop.offset
      | none => stop.offset
    .node ⟨kind, true, false, none, first, last⟩ children.toList
  match v.stack with
  | [] => some (build v.here v.here v.leading)
  | [e] =>
    if e.symbol = .nonterminal g.start then
      some (build e.fragment.start e.fragment.stop (v.leading ++ e.fragment.parts ++ e.extras))
    else none
  | _ => none

end Version

/-- Where one step of a reading leads: on, or to a finished tree of some weight. -/
inductive Advance where
  | on (v : Version)
  | done (tree : Concrete) (weight : Int)

/-- Takes a version past a lexeme: ends productions and reads the lexeme in every way the grammar
leaves open. A keyword that cannot come next is read as a word. `fuel` bounds the productions ended in
a row. -/
def settle (g : Tables) (initial : ItemSet) (l : Lexeme) : Nat → Version → List Advance
  | 0, _ => []
  | fuel + 1, v =>
    let items := v.items initial
    let asIs := Decision.make g items l.terminal
    let asWord := l.keyword && !asIs.shift && asIs.reduce.isEmpty
    let terminal := if asWord then g.word else l.terminal
    let decision := if asWord then Decision.make g items g.word else asIs
    if terminal = g.endOfText then
      if v.stack.isEmpty then (v.finished g).toList.map (.done · v.weight)
      else decision.reduce.flatMap fun i =>
        let w := v.reduce g initial i
        match w.finished g with
        | some tree => [.done tree w.weight]
        | none => settle g initial l fuel w
    else
      (decision.reduce.flatMap fun i => settle g initial l fuel (v.reduce g initial i)) ++
        if decision.shift then [.on (v.shift g initial terminal l)] else []

/-- The language-specific part of parsing: which terminals may stand anywhere, and how to read the
next lexeme given the terminals that can come next. -/
structure Scanner where
  extras : List Nat
  read : Terminals → Point → List Char → Option Lexeme

/-- Adds a version unless an equal one at least as heavy is there; a lighter one makes way. -/
def insertVersion (v : Version) : List Version → List Version
  | [] => [v]
  | w :: ws => if w.agrees v then (if v.weight > w.weight then v else w) :: ws
    else w :: insertVersion v ws

/-- Moves the version that has read least one lexeme on. Yields the new versions and the trees that
were finished. -/
def advanceOne (g : Tables) (scanner : Scanner) (initial : ItemSet) (v : Version) : List Advance :=
  match scanner.read ((v.items initial).expected g) v.here v.rest with
  | none => []
  | some l =>
    if scanner.extras.contains l.terminal then
      let shown := (g.symbols.tokens[l.terminal]?.bind (·.shown)).getD ⟨"", false⟩
      [.on (v.addExtra
        (.node ⟨shown.name, shown.named, true, none, l.start, l.stop.offset⟩ []) l)]
    else settle g initial l ((v.depth + 2) * (g.symbols.nonterminalCount + 1)) v

/-- Splits off the first of the versions that have read least. -/
def takeEarliest : List Version → Option (Version × List Version)
  | [] => none
  | v :: vs => match takeEarliest vs with
    | none => some (v, vs)
    | some (w, ws) => if w.here.offset < v.here.offset then some (w, v :: ws) else some (v, vs)

/-- Keeps the heavier of two finished trees, the first of equal ones. -/
def heavierTree (best : Option (Concrete × Int)) (tree : Concrete) (weight : Int) :
    Option (Concrete × Int) :=
  match best with
  | some b => if weight > b.2 then some (tree, weight) else some b
  | none => some (tree, weight)

/-- Follows all versions to the end of the text. -/
def followAll (g : Tables) (scanner : Scanner) (initial : ItemSet) :
    Nat → List Version → Option (Concrete × Int) → Option (Concrete × Int)
  | 0, _, best => best
  | fuel + 1, versions, best =>
    match takeEarliest versions with
    | none => best
    | some (v, others) =>
      let moves := advanceOne g scanner initial v
      let versions := moves.foldl (fun vs m => match m with
        | .on w => insertVersion w vs
        | .done _ _ => vs) others
      let best := moves.foldl (fun b m => match m with
        | .on _ => b
        | .done tree weight => heavierTree b tree weight) best
      followAll g scanner initial fuel versions best

/-- The concrete tree of a text, if the text belongs to the grammar. -/
def parse (g : Tables) (scanner : Scanner) (text : List Char) : Option Concrete :=
  let length := text.length + 16
  (followAll g scanner (ItemSet.initial g) (16 * length * length) [Version.start text] none).map (·.1)

end PrototypeScan.Grammar
