import PrototypeScan.Json.Cursor

/-!
Strings in JSON text, read one piece at a time.
-/
namespace PrototypeScan.Json.Quoted
open Text

/-- What the next piece of a string belongs to: plain text, an escape, the digits of a code (with the
first half of a surrogate pair, if there is one), or the start of the second half. -/
inductive State where
  | plain
  | escape
  | code (high : Option Nat) (value bytes : Nat) (valid : Bool)
  | backslash (high : Nat)
  | letter (high : Nat)

def hexValue (c : Char) : Option Nat :=
  if '0' ≤ c && c ≤ '9' then some (c.toNat - '0'.toNat)
  else if 'a' ≤ c && c ≤ 'f' then some (c.toNat - 'a'.toNat + 10)
  else if 'A' ≤ c && c ≤ 'F' then some (c.toNat - 'A'.toNat + 10)
  else none

/-- The character of an escape of one letter. -/
def escaped? (c : Char) : Option Char :=
  if c = '"' || c = '\\' || c = '/' then some c
  else if c = 'b' then some (Char.ofNat 8)
  else if c = 'f' then some (Char.ofNat 12)
  else if c = 'n' then some '\n'
  else if c = 'r' then some '\r'
  else if c = 't' then some '\t'
  else none

/-- A string that is being read: the characters so far, the last one first, and what is wrong with the
first piece that is no character. -/
structure Reading where
  latest : List Char
  illFormed : Option Error

def Reading.add (r : Reading) (c : Char) : Reading := { r with latest := c :: r.latest }

def isControl (c : Char) : Bool := c.toNat < 0x20

/-- Where the four digits of a code lead. -/
def codeRead (high : Option Nat) (value : Nat) : Except Cause (State ⊕ Char) :=
  match high with
  | none =>
    if 0xDC00 ≤ value && value ≤ 0xDFFF then .error .loneSurrogate
    else if 0xD800 ≤ value && value ≤ 0xDBFF then .ok (.inl (.backslash value))
    else .ok (.inr (Char.ofNat value))
  | some h =>
    if 0xDC00 ≤ value && value ≤ 0xDFFF then
      .ok (.inr (Char.ofNat ((h - 0xD800) * 0x400 + (value - 0xDC00) + 0x10000)))
    else .error .loneSurrogate

/-- Reads to the end of a string, from `line` and `column`. -/
def readFrom : State → Reading → Nat → Nat → List Piece → Except Error (String × Cursor)
  | _, _, line, column, [] => .error ⟨.endInString, line, column⟩
  | state, r, line, column, p :: rest =>
    let k := (Cursor.mk [] line column).pass p rest
    let here := (Cursor.mk (p :: rest) line column)
    match state with
    | .plain => match p with
      | .illFormed _ =>
        let found := r.illFormed.getD (here.failNext .invalidCharacter)
        readFrom .plain { r with illFormed := some found } k.line k.column rest
      | .char c =>
        if c = '"' then
          match r.illFormed with
          | none => .ok (String.ofList r.latest.reverse, k)
          | some e => .error e
        else if c = '\\' then readFrom .escape r k.line k.column rest
        else if isControl c then .error (k.fail .controlCharacter)
        else readFrom .plain (r.add c) k.line k.column rest
    | .escape => match p with
      | .illFormed _ => .error (here.failNext .invalidEscape)
      | .char c =>
        if c = 'u' then readFrom (.code none 0 0 true) r k.line k.column rest
        else match escaped? c with
          | some d => readFrom .plain (r.add d) k.line k.column rest
          | none => .error (here.failNext .invalidEscape)
    | .code high value bytes valid =>
      let digit := match p with
        | .char c => hexValue c
        | .illFormed _ => none
      let value := value * 16 + digit.getD 0
      let valid := valid && digit.isSome
      if bytes + p.size < 4 then readFrom (.code high value (bytes + p.size) valid) r k.line k.column rest
      else if !valid then
        .error (if p.is '\n' then k.fail .invalidEscape
          else ⟨.invalidEscape, line, column + (4 - bytes)⟩)
      else match codeRead high value with
        | .error cause => .error (k.fail cause)
        | .ok (.inl state) => readFrom state r k.line k.column rest
        | .ok (.inr c) => readFrom .plain (r.add c) k.line k.column rest
    | .backslash high =>
      if p.is '\\' then readFrom (.letter high) r k.line k.column rest
      else .error (here.failNext .endOfHexEscape)
    | .letter high =>
      if p.is 'u' then readFrom (.code (some high) 0 0 true) r k.line k.column rest
      else .error (here.failNext .endOfHexEscape)

/-- Reads a string; its opening quote has been read. -/
def read (k : Cursor) : Except Error (String × Cursor) :=
  readFrom .plain ⟨[], none⟩ k.line k.column k.rest

end PrototypeScan.Json.Quoted
