import PrototypeScan.Concrete.Basic
import PrototypeScan.Grammar.ItemSet

/-!
Lexemes: the tokens that a text holds at a place. Only the tokens that can come next are tried. Among
them the longest match counts; of equally long ones the higher rank, then fixed texts before adjacent
patterns before others, then the order of the grammar.
-/
namespace PrototypeScan.Grammar

/-- A token read from a text. -/
structure Lexeme where
  terminal : Nat
  start : Point
  stop : Point
  /-- what follows it -/
  rest : List Char
  /-- whether it is a keyword that could also be read as a word -/
  keyword : Bool
  deriving Repr

namespace Lexeme

/-- A token that a text may still turn out to hold, with what would have to follow. -/
structure Candidate where
  terminal : Nat
  rank : Int
  precision : Nat
  open_ : List Pattern

namespace Candidate

def adjacent : Shape → Bool
  | .adjacent _ _ => true
  | _ => false

def start (terminal : Nat) : Shape → Option Candidate
  | .text s => some ⟨terminal, 0, 2, [Pattern.text s]⟩
  | .pattern p => some ⟨terminal, 0, 0, [p]⟩
  | .adjacent p rank => some ⟨terminal, rank, 1, [p]⟩
  | .scanned => none

def read (c : Char) (k : Candidate) : Option Candidate :=
  match k.open_.flatMap (·.residues c) with
  | [] => none
  | more => some { k with open_ := more.eraseDups }

def complete (k : Candidate) : Bool := k.open_.any (·.nullable)

/-- The better of two complete candidates; the first of equal ones. -/
def better (a b : Candidate) : Candidate :=
  if b.rank > a.rank then b
  else if b.rank = a.rank && b.precision > a.precision then b
  else a

end Candidate

/-- A match found so far. -/
structure Match where
  terminal : Nat
  start : Point
  stop : Point
  rest : List Char

/-- Reads on as long as a candidate can. `blank` tells the characters that may precede a token and
`fresh` lists the candidates that may start behind them; `skipping` holds while nothing but such
characters has been read. Once a candidate of some rank is complete, only characters that a candidate
of the same rank or a higher one reads are followed. -/
def longest (blank : Char → Bool) (fresh : List Candidate) :
    List Candidate → Bool → Option Int → Point → Point → Option Match → List Char → Option Match
  | _, _, _, _, _, best, [] => best
  | candidates, skipping, ranked, start, here, best, c :: rest =>
    let moved := candidates.filterMap (Candidate.read c)
    let skip := skipping && blank c
    let rank := moved.foldl (fun r k => if k.rank > r then k.rank else r)
      (if skip then 0 else (moved.head?.map (·.rank)).getD 0)
    let follow := match ranked with
      | none => true
      | some done => rank > done || (rank = done && !moved.isEmpty)
    if (moved.isEmpty && !skip) || !follow then best
    else
      let next := here.after c
      let from_ := if moved.isEmpty then next else start
      let candidates := if skip then moved ++ fresh else moved
      match moved.filter (·.complete) with
      | [] => longest blank fresh candidates skip none from_ next best rest
      | k :: ks =>
        let won := ks.foldl Candidate.better k
        longest blank fresh candidates skip (some won.rank) from_ next
          (some ⟨won.terminal, from_, next, rest⟩) rest

/-- The lexeme that `text` holds at `here`, of the terminals in `expected` and those in `always`.
`words` tells the keywords by their spelling: they are read as words first, and count as keywords
where they are expected. At the end of the text the end itself is the lexeme. -/
def read (g : Tables) (blank : Char → Bool) (always : List Nat) (words : String → Option Nat)
    (expected : Terminals) (here : Point) (text : List Char) : Option Lexeme :=
  let isWord (i : Nat) : Bool := match (g.symbols.tokens[i]?.map (·.shape) : Option Shape) with
    | some (.text s) => (words s).isSome
    | _ => false
  let listed := (List.range g.symbols.tokens.size).filter fun i => expected.contains i
  let plain := listed.filter (!isWord ·)
  let wanted := if listed.any isWord then (g.word :: plain).eraseDups else plain
  let tried := (always ++ wanted).eraseDups
  let shapes := tried.filterMap fun i => g.symbols.tokens[i]?.map fun t => (i, t.shape)
  let fresh := (shapes.filter (!Candidate.adjacent ·.2)).filterMap fun s => Candidate.start s.1 s.2
  let all := shapes.filterMap fun s => Candidate.start s.1 s.2
  match longest blank fresh all true none here here none text with
  | some m =>
    let spelling := String.ofList (text.drop (m.start.offset - here.offset)
      |>.take (m.stop.offset - m.start.offset))
    let keyword := if m.terminal = g.word then (words spelling).filter expected.contains else none
    match keyword with
    | some k => some ⟨k, m.start, m.stop, m.rest, true⟩
    | none => some ⟨m.terminal, m.start, m.stop, m.rest, false⟩
  | none =>
    if text.all blank then
      let last := here.afterAll text
      some ⟨g.endOfText, last, last, [], false⟩
    else none

end Lexeme

end PrototypeScan.Grammar
