import PrototypeScan.Grammar.Pattern

/-!
Grammars as data. A rule is a phrase: an expression over tokens and rule names that also says under which field
and which name the parts show in the concrete tree, and how tightly it binds where readings compete.
-/
namespace PrototypeScan.Grammar

/-- How tightly a rule binds: not stated, a number, or a name placed by the grammar's ladders. -/
inductive Level where
  | unstated
  | number (n : Int)
  | named (name : String)
  deriving DecidableEq, Repr

inductive Associativity where
  | left
  | right
  deriving DecidableEq, Repr

/-- The name under which a part shows in place of its own, and whether that name is a kind. -/
structure Alias where
  name : String
  named : Bool
  deriving DecidableEq, Repr

/-- The right-hand side of a rule. -/
inductive Phrase where
  | blank
  | literal (text : String)
  | symbol (name : String)
  | seq (first second : Phrase)
  | choice (first second : Phrase)
  | oneOrMore (body : Phrase)
  | field (name : String) (body : Phrase)
  | renamed (shown : Alias) (body : Phrase)
  | binding (level : Level) (associativity : Option Associativity) (body : Phrase)
  | weighted (weight : Int) (body : Phrase)
  deriving DecidableEq, Repr

namespace Phrase

/-- The literal token `text`. -/
def lit (text : String) : Phrase := literal text

/-- The token or rule called `name`. -/
def sym (name : String) : Phrase := symbol name

/-- All parts one after the other. -/
def inOrder : List Phrase → Phrase
  | [] => blank
  | [r] => r
  | r :: rs => seq r (inOrder rs)

/-- One of the alternatives. -/
def anyOf : List Phrase → Phrase
  | [] => blank
  | [r] => r
  | r :: rs => choice r (anyOf rs)

def maybe (r : Phrase) : Phrase := choice r blank

def zeroOrMore (r : Phrase) : Phrase := maybe (oneOrMore r)

/-- One or more, with commas between. -/
def commaSep1 (r : Phrase) : Phrase := seq r (zeroOrMore (seq (literal ",") r))

def commaSep (r : Phrase) : Phrase := maybe (commaSep1 r)

def left (level : String) (r : Phrase) : Phrase := binding (.named level) (some .left) r

def right (level : String) (r : Phrase) : Phrase := binding (.named level) (some .right) r

def level (name : String) (r : Phrase) : Phrase := binding (.named name) none r

/-- Groups to the right, at the middle level. -/
def rightward (r : Phrase) : Phrase := binding (.number 0) (some .right) r

def leftward (r : Phrase) : Phrase := binding (.number 0) (some .left) r

/-- Shows under the kind `name`. -/
def shownAs (name : String) (r : Phrase) : Phrase := renamed ⟨name, true⟩ r

/-- Shows as the token `text`. -/
def shownAsToken (text : String) (r : Phrase) : Phrase := renamed ⟨text, false⟩ r

/-- The repeated bodies in a rule, inner ones first. -/
def repeatedBodies : Phrase → List Phrase
  | blank | literal _ | symbol _ => []
  | seq a b | choice a b => a.repeatedBodies ++ b.repeatedBodies
  | oneOrMore r => r.repeatedBodies ++ [r]
  | field _ r | renamed _ r | binding _ _ r | weighted _ r => r.repeatedBodies

/-- The literal tokens in a rule. -/
def literals : Phrase → List String
  | blank | symbol _ => []
  | literal text => [text]
  | seq a b | choice a b => a.literals ++ b.literals
  | oneOrMore r | field _ r | renamed _ r | binding _ _ r | weighted _ r => r.literals

end Phrase

/-- How a token is recognised. -/
inductive Lexeme.Shape where
  /-- a fixed text -/
  | text (text : String)
  /-- a pattern that blanks may precede -/
  | pattern (p : Pattern)
  /-- a pattern that starts right where the last token ended; a higher rank wins over length -/
  | adjacent (p : Pattern) (rank : Int)
  /-- recognised by the language's own scanner -/
  | scanned
  deriving DecidableEq, Repr

/-- A token of a grammar, and the name under which it shows in a concrete tree, if it does. -/
structure Token where
  name : String
  shape : Lexeme.Shape
  shown : Option Alias
  deriving DecidableEq, Repr

/-- A token that shows under its own name. -/
def Token.visible (name : String) (shape : Lexeme.Shape) : Token := ⟨name, shape, some ⟨name, true⟩⟩

/-- A token that makes no node. -/
def Token.silent (name : String) (shape : Lexeme.Shape) : Token := ⟨name, shape, none⟩

/-- An entry of a ladder of binding strengths. -/
inductive Rung where
  | level (name : String)
  | rule (name : String)
  deriving DecidableEq, Repr

end PrototypeScan.Grammar

namespace PrototypeScan
open Grammar

/-- A grammar: named tokens, rules, and how competing readings are settled. -/
structure Grammar where
  start : String
  tokens : List Token
  rules : List (String × Phrase)
  /-- rules that group others and make no node of their own -/
  transparent : List String
  /-- rules that are written out where they are used -/
  inlined : List String
  /-- each ladder lists levels and rules from the tightest to the loosest -/
  ladders : List (List Rung)
  /-- the token whose pattern also covers the keywords -/
  word : String

end PrototypeScan
