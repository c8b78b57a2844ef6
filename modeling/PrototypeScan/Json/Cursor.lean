import PrototypeScan.Text.Utf8

/-!
A place in a JSON text, and what can be wrong there.
-/
namespace PrototypeScan.Json
open Text

/-- Why a text is no JSON. -/
inductive Cause where
  | endInList
  | endInObject
  | endInString
  | endInValue
  | expectedColon
  | expectedListEnd
  | expectedObjectEnd
  | expectedIdent
  | expectedValue
  | invalidEscape
  | invalidNumber
  | numberOutOfRange
  | invalidCharacter
  | controlCharacter
  | keyNotString
  | loneSurrogate
  | endOfHexEscape
  | trailingComma
  | trailingCharacters
  | tooDeep
  deriving DecidableEq, Repr

namespace Cause

def text : Cause → String
  | endInList => "EOF while parsing a list"
  | endInObject => "EOF while parsing an object"
  | endInString => "EOF while parsing a string"
  | endInValue => "EOF while parsing a value"
  | expectedColon => "expected \x60:\x60"
  | expectedListEnd => "expected \x60,\x60 or \x60]\x60"
  | expectedObjectEnd => "expected \x60,\x60 or \x60\x7d\x60"
  | expectedIdent => "expected ident"
  | expectedValue => "expected value"
  | invalidEscape => "invalid escape"
  | invalidNumber => "invalid number"
  | numberOutOfRange => "number out of range"
  | invalidCharacter => "invalid unicode code point"
  | controlCharacter => "control character (\\u0000-\\u001F) found while parsing a string"
  | keyNotString => "key must be a string"
  | loneSurrogate => "lone leading surrogate in hex escape"
  | endOfHexEscape => "unexpected end of hex escape"
  | trailingComma => "trailing comma"
  | trailingCharacters => "trailing characters"
  | tooDeep => "recursion limit exceeded"

/-- Whether the text might be JSON if it went on. -/
def isEnd : Cause → Bool
  | endInList | endInObject | endInString | endInValue => true
  | _ => false

end Cause

/-- What is wrong, on which line and how many bytes into it. -/
structure Error where
  cause : Cause
  line : Nat
  column : Nat
  deriving DecidableEq, Repr

def Error.message (e : Error) : String :=
  e.cause.text ++ " at line " ++ toString e.line ++ " column " ++ toString e.column

/-- The rest of a text, with the line and the bytes of it that have been read. -/
structure Cursor where
  rest : List Piece
  line : Nat
  column : Nat
  deriving Repr

namespace Cursor

def start (text : List Piece) : Cursor := ⟨text, 1, 0⟩

/-- Behind the piece `p`. -/
def pass (k : Cursor) (p : Piece) (rest : List Piece) : Cursor :=
  if p.is '\n' then ⟨rest, k.line + 1, 0⟩ else ⟨rest, k.line, k.column + p.size⟩

/-- An error at the place reached. -/
def fail (k : Cursor) (cause : Cause) : Error := ⟨cause, k.line, k.column⟩

/-- An error one byte on, or at the end of the text. -/
def failNext (k : Cursor) (cause : Cause) : Error :=
  match k.rest with
  | [] => k.fail cause
  | p :: _ => if p.is '\n' then ⟨cause, k.line + 1, 0⟩ else ⟨cause, k.line, k.column + 1⟩

def isSpace (p : Piece) : Bool := p.is ' ' || p.is '\n' || p.is '\t' || p.is '\r'

def skipFrom (line column : Nat) : List Piece → Cursor
  | [] => ⟨[], line, column⟩
  | p :: rest =>
    if isSpace p then
      if p.is '\n' then skipFrom (line + 1) 0 rest else skipFrom line (column + 1) rest
    else ⟨p :: rest, line, column⟩

/-- Skips white space. -/
def skipSpace (k : Cursor) : Cursor := skipFrom k.line k.column k.rest

/-- The next piece, if it is a character. -/
def peek (k : Cursor) : Option Char :=
  match k.rest with
  | .char c :: _ => some c
  | _ => none

/-- Behind the next piece. -/
def next (k : Cursor) : Cursor :=
  match k.rest with
  | [] => k
  | p :: rest => k.pass p rest

end Cursor

end PrototypeScan.Json
