import PrototypeScan.Shell.Token

/-!
The command that a script is, read from its tokens.
-/
namespace PrototypeScan.Shell

/-- Reading from the start of a list of tokens. -/
abbrev Reading := StateT (List Token) Option

namespace Reading

/-- The text of a word in which nothing is quoted and no parameter stands. -/
def plain? : Token → Option String
  | .word w =>
    let parts := w.map fun
      | .text false cs => some cs
      | _ => none
    if parts.all Option.isSome then some (String.ofList (parts.flatMap (·.getD []))) else none
  | _ => none

/-- Whether the next token is the given word. -/
def atWord (text : String) : Reading Bool :=
  return (← get).head?.any fun t => plain? t = some text

def atOperator (text : String) : Reading Bool :=
  return (← get).head?.any fun t => decide (t = .operator text)

def skip : Reading Unit := modify (·.drop 1)

def expectWord (text : String) : Reading Unit := do
  if ← atWord text then skip else failure

def expectOperator (text : String) : Reading Unit := do
  if ← atOperator text then skip else failure

def anyWord : Reading Word := do
  match ← get with
  | .word w :: rest => set rest; return w
  | _ => failure

def isSeparator (t : Token) : Bool := [.operator ";", .operator "\n", .operator "&"].contains t

def skipLines : Reading Unit := modify (·.dropWhile fun t => decide (t = .operator "\n"))

/-- Words that end a list of commands where a command could stand. -/
def closing : List String := ["then", "else", "elif", "fi", "esac", "do", "done", "\x7d"]

/-- Whether a list of commands ends here. -/
def atEnd : Reading Bool := do
  match ← get with
  | [] => return true
  | t :: _ =>
    return t = .operator ")" || t = .operator ";;" || (plain? t).any closing.contains

/-- A redirected stream, if one stands here. -/
def redirect? : Reading (Option Redirect) := do
  match ← get with
  | .document w :: rest => set rest; return some (.document w)
  | .arrow stream a :: .word w :: rest =>
    set rest
    if a = "<" then return some (.input w)
    else if a = ">" || a = ">>" then return some (.output stream w)
    else return some (.copy stream w)
  | .arrow _ _ :: _ => failure
  | _ => return none

def redirects : Nat → List Redirect → Reading (List Redirect)
  | 0, before => return before.reverse
  | fuel + 1, before => do
    match ← redirect? with
    | some r => redirects fuel (r :: before)
    | none => return before.reverse

/-- The words and redirected streams of a simple command. -/
def simple : Nat → List Word → List Redirect → Reading Command
  | 0, _, _ => failure
  | fuel + 1, words, found => do
    match ← redirect? with
    | some r => simple fuel words (r :: found)
    | none => match ← get with
      | .word w :: rest => set rest; simple fuel (w :: words) found
      | _ =>
        if words.isEmpty && found.isEmpty then failure
        else return .simple words.reverse found.reverse

/-- The patterns of a branch. -/
def patterns : Nat → List Word → Reading (List Word)
  | 0, _ => failure
  | fuel + 1, before => do
    let w ← anyWord
    if ← atOperator "|" then
      skip
      patterns fuel (w :: before)
    else
      expectOperator ")"
      return (w :: before).reverse

mutual

/-- Commands one after the other. -/
def commands : Nat → Reading Command
  | 0 => failure
  | fuel + 1 => do
    modify (·.dropWhile isSeparator)
    if ← atEnd then return .nothing
    else
      let first ← chain fuel
      match (← get).head? with
      | some t =>
        if isSeparator t then return .sequence first (← commands fuel)
        else if ← atEnd then return first
        else failure
      | none => return first

/-- Commands joined by what they come to. -/
def chain : Nat → Reading Command
  | 0 => failure
  | fuel + 1 => do chainFrom fuel (← pipeline fuel)

def chainFrom : Nat → Command → Reading Command
  | 0, _ => failure
  | fuel + 1, first => do
    if ← atOperator "&&" then
      skip
      skipLines
      chainFrom fuel (.both first (← pipeline fuel))
    else if ← atOperator "||" then
      skip
      skipLines
      chainFrom fuel (.either first (← pipeline fuel))
    else return first

def pipeline : Nat → Reading Command
  | 0 => failure
  | fuel + 1 => do
    if ← atWord "!" then
      skip
      return .negated (← pipeline fuel)
    else
      let first ← single fuel
      if ← atOperator "|" then
        skip
        skipLines
        return .piped first (← pipeline fuel)
      else return first

def single : Nat → Reading Command
  | 0 => failure
  | fuel + 1 => do
    if ← atWord "if" then
      skip
      let c ← conditional fuel
      return .group c (← redirects (← get).length [])
    else if ← atWord "case" then
      skip
      let subject ← anyWord
      skipLines
      expectWord "in"
      return .selection subject (← branches fuel)
    else if ← atWord "\x7b" then
      skip
      let c ← commands fuel
      expectWord "\x7d"
      return .group c (← redirects (← get).length [])
    else if ← atOperator "(" then
      skip
      let c ← commands fuel
      expectOperator ")"
      return .isolated c (← redirects (← get).length [])
    else simple ((← get).length + 1) [] []

/-- What follows `if`. -/
def conditional : Nat → Reading Command
  | 0 => failure
  | fuel + 1 => do
    let condition ← commands fuel
    expectWord "then"
    let yes ← commands fuel
    if ← atWord "elif" then
      skip
      return .conditional condition yes (← conditional fuel)
    else if ← atWord "else" then
      skip
      let no ← commands fuel
      expectWord "fi"
      return .conditional condition yes no
    else
      expectWord "fi"
      return .conditional condition yes .nothing

/-- The branches of a selection up to its end. -/
def branches : Nat → Reading (List (List Word × Command))
  | 0 => failure
  | fuel + 1 => do
    skipLines
    if ← atWord "esac" then
      skip
      return []
    else
      if ← atOperator "(" then skip
      let ps ← patterns ((← get).length + 1) []
      let c ← commands fuel
      skipLines
      if ← atOperator ";;" then
        skip
        return (ps, c) :: (← branches fuel)
      else
        expectWord "esac"
        return [(ps, c)]

end

end Reading

/-- The command that a script is; none if it is not well formed. -/
def read? (script : String) : Option Command := do
  let cs := script.toList
  let ts ← tokens? (cs.length + 1) [] cs
  let (c, rest) ← (Reading.commands (8 * ts.length + 8)).run ts
  if rest.isEmpty then some c else none

end PrototypeScan.Shell
