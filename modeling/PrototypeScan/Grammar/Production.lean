import PrototypeScan.Grammar.Phrase

/-!
Productions: the rules of a grammar written out as sequences of symbols. Choices become separate
productions, repetitions become rules of their own, and inlined rules are replaced by their bodies.
-/
namespace PrototypeScan.Grammar

/-- A terminal or a nonterminal, by index. -/
inductive Symbol where
  | terminal (index : Nat)
  | nonterminal (index : Nat)
  deriving DecidableEq, Repr, Inhabited

/-- A finite set of terminals, each given by its index and kept as a bit of a number. -/
structure Terminals where
  bits : Nat
  deriving DecidableEq, Repr

namespace Terminals

def empty : Terminals := ⟨0⟩

def only (t : Nat) : Terminals := ⟨1 <<< t⟩

@[inline] def union (a b : Terminals) : Terminals := ⟨a.bits ||| b.bits⟩

@[inline] def contains (s : Terminals) (t : Nat) : Bool := s.bits.testBit t

def isEmpty (s : Terminals) : Bool := s.bits == 0

def insert (s : Terminals) (t : Nat) : Terminals := s.union (only t)

end Terminals

/-- One symbol of a production, with what its rule said about it. -/
structure Step where
  symbol : Symbol
  level : Level
  associativity : Option Associativity
  shown : Option Alias
  field : Option String
  deriving DecidableEq, Repr

/-- A production: the head derives the steps in order. -/
structure Production where
  head : Nat
  steps : Array Step
  weight : Int
  deriving DecidableEq, Repr, Inhabited

/-- The symbols of a grammar: tokens, then literals; rules, then repeated bodies. -/
structure Symbols where
  tokens : Array Token
  rules : Array (String × Phrase)
  bodies : Array Phrase
  deriving Repr

namespace Symbols

/-- The tokens of `g`: the named ones first, then every literal that none of them stands for, shown as
its text. -/
def tokensOf (g : Grammar) : List Token :=
  let spelled := g.tokens.filterMap fun t => match t.shape with
    | .text s => some s
    | _ => none
  let literals := (g.rules.flatMap (·.2.literals)).eraseDups.filter (!spelled.contains ·)
  g.tokens ++ literals.map fun s => ⟨"=" ++ s, .text s, some ⟨s, false⟩⟩

def ofGrammar (g : Grammar) : Symbols where
  tokens := (tokensOf g).toArray
  rules := g.rules.toArray
  bodies := (g.rules.flatMap (·.2.repeatedBodies)).eraseDups.toArray

/-- The terminal spelled `text`. -/
def spelled (s : Symbols) (text : String) : Option Symbol :=
  (s.tokens.findIdx? fun t => t.shape = .text text).map .terminal

/-- The token or rule called `name`. -/
def named (s : Symbols) (name : String) : Option Symbol :=
  match s.tokens.findIdx? (·.name = name) with
  | some i => some (.terminal i)
  | none => (s.rules.findIdx? (·.1 = name)).map .nonterminal

/-- The nonterminal that repeats `body`. -/
def repeating (s : Symbols) (body : Phrase) : Option Symbol :=
  (s.bodies.findIdx? (· = body)).map fun i => .nonterminal (s.rules.size + i)

def nonterminalCount (s : Symbols) : Nat := s.rules.size + s.bodies.size

end Symbols

/-- What the surrounding expressions say about the symbols inside. -/
structure Context where
  level : Level := .unstated
  associativity : Option Associativity := none
  shown : Option Alias := none
  field : Option String := none

/-- The stronger of two weights; of equally strong ones the first. -/
def heavier (a b : Int) : Int := if b.natAbs > a.natAbs then b else a

/-- One way to read a rule: its steps and the weight they carry. -/
abbrev Reading := List Step × Int

/-- Applies `f` to the last step, where there is one. -/
def onLast (f : Step → Step) : List Step → List Step
  | [] => []
  | [s] => [f s]
  | s :: rest => s :: onLast f rest

/-- The readings of a rule. A binding strength reaches up to the last step of its expression; what
follows that step competes at the strength of the surrounding expression, so unless the expression
ends the production its last step takes the outer one. -/
def readings (symbols : Symbols) (ctx : Context) (atEnd : Bool) : Phrase → List Reading
  | .blank => [([], 0)]
  | .literal text => single (symbols.spelled text)
  | .symbol name => single (symbols.named name)
  | .oneOrMore body => single (symbols.repeating body)
  | .seq a b =>
    (readings symbols ctx false a).flatMap fun left =>
      (readings symbols ctx atEnd b).map fun right =>
        (left.1 ++ right.1, heavier left.2 right.2)
  | .choice a b => readings symbols ctx atEnd a ++ readings symbols ctx atEnd b
  | .field name r => readings symbols { ctx with field := some name } atEnd r
  | .renamed shown r => readings symbols { ctx with shown := some shown } atEnd r
  | .weighted w r => (readings symbols ctx atEnd r).map fun x => (x.1, heavier w x.2)
  | .binding level associativity r =>
    let inner : Context :=
      { ctx with level := level, associativity := associativity.or ctx.associativity }
    let found := readings symbols inner atEnd r
    if atEnd then found
    else found.map fun x =>
      (onLast (fun s => { s with
        level := ctx.level
        associativity := if associativity.isSome then ctx.associativity else s.associativity })
        x.1, x.2)
where
  single : Option Symbol → List Reading
    | some s => [([⟨s, ctx.level, ctx.associativity, ctx.shown, ctx.field⟩], 0)]
    | none => []

/-- The readings of every nonterminal. A repeated body is itself, or two repetitions in a row. -/
def readingsOf (symbols : Symbols) : Array (List Reading) :=
  let rules := symbols.rules.map fun r => (readings symbols {} true r.2).eraseDups
  let repeated := symbols.bodies.mapIdx fun i body =>
    let again : Step := ⟨.nonterminal (symbols.rules.size + i), .unstated, none, none, none⟩
    (([again, again], 0) :: readings symbols {} true body).eraseDups
  rules ++ repeated

/-- Replaces a step by the steps of an inlined rule. The step's own name and field win; its binding
strength fills in where the last inlined step has none. -/
def substitute (outer : Step) (inner : List Step) : List Step :=
  let shown := inner.map fun s =>
    { s with shown := outer.shown.or s.shown, field := outer.field.or s.field }
  onLast (fun s => { s with
    level := if s.level = .unstated then outer.level else s.level
    associativity := s.associativity.or outer.associativity }) shown

/-- Writes out the inlined rules in a sequence of steps, `depth` levels deep. -/
def writeOut (inlined : Nat → Option (List Reading)) : Nat → List Step → Int → List Reading
  | _, [], weight => [([], weight)]
  | 0, steps, weight => [(steps, weight)]
  | depth + 1, step :: rest, weight =>
    let heads : List Reading := match step.symbol with
      | .terminal _ => [([step], 0)]
      | .nonterminal i => match inlined i with
        | none => [([step], 0)]
        | some bodies => bodies.flatMap fun body =>
            writeOut inlined depth (substitute step body.1) body.2
    heads.flatMap fun h =>
      (writeOut inlined (depth + 1) rest weight).map fun t =>
        (h.1 ++ t.1, heavier t.2 h.2)
termination_by depth steps => (depth, steps.length)

/-- All productions of a grammar, inlined rules written out and left out. Empty readings are kept
for the start rule alone, where they stand for the empty text; other rules have none. -/
def productionsOf (g : Grammar) (symbols : Symbols) : Array Production :=
  let found := readingsOf symbols
  let isInlined (i : Nat) : Bool := match symbols.rules[i]? with
    | some r => g.inlined.contains r.1
    | none => false
  let body (i : Nat) : Option (List Reading) :=
    if isInlined i then found[i]? else none
  let ofHead (i : Nat) (rs : List Reading) : List Production :=
    if isInlined i then []
    else
      let all := (rs.flatMap fun r => writeOut body (symbols.rules.size + 1) r.1 r.2).eraseDups
      (all.filter fun r => !r.1.isEmpty).map fun r => ⟨i, r.1.toArray, r.2⟩
  (found.mapIdx fun i rs => (ofHead i rs).toArray).flatten

end PrototypeScan.Grammar
