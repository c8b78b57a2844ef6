import PrototypeScan.Json.Number
import PrototypeScan.Json.Quoted

/-!
Skipping values that nobody asks for. They may be nested without a bound, and less of them is checked: a
number may be out of range, and the codes in a string need not make up characters.
-/
namespace PrototypeScan.Json

/-- Reads the rest of a word. -/
def readWord (k : Cursor) : List Char → Except Error Cursor
  | [] => .ok k
  | c :: cs => match k.rest with
    | [] => .error (k.fail .endInValue)
    | p :: _ => if p.is c then readWord k.next cs else .error (k.failNext .expectedIdent)

/-- The colon behind a key. -/
def readColon (k : Cursor) : Except Error Cursor :=
  let k := k.skipSpace
  match k.rest with
  | [] => .error (k.failNext .endInObject)
  | p :: _ => if p.is ':' then .ok k.next else .error (k.failNext .expectedColon)

namespace Skipped
open Text

/-- What the next piece of a skipped string belongs to. -/
inductive State where
  | plain
  | escape
  | code (bytes : Nat) (valid : Bool)

/-- Skips to the end of a string, from `line` and `column`. -/
def stringFrom : State → Nat → Nat → List Piece → Except Error Cursor
  | _, line, column, [] => .error ⟨.endInString, line, column⟩
  | state, line, column, p :: rest =>
    let k := (Cursor.mk [] line column).pass p rest
    let here := Cursor.mk (p :: rest) line column
    match state, p with
    | .plain, .illFormed _ => stringFrom .plain k.line k.column rest
    | .plain, .char c =>
      if c = '"' then .ok k
      else if c = '\\' then stringFrom .escape k.line k.column rest
      else if Quoted.isControl c then .error (k.fail .controlCharacter)
      else stringFrom .plain k.line k.column rest
    | .escape, .illFormed _ => .error (here.failNext .invalidEscape)
    | .escape, .char c =>
      if c = 'u' then stringFrom (.code 0 true) k.line k.column rest
      else if (Quoted.escaped? c).isSome then stringFrom .plain k.line k.column rest
      else .error (here.failNext .invalidEscape)
    | .code bytes valid, p =>
      let isDigit := match p with
        | .char c => (Quoted.hexValue c).isSome
        | .illFormed _ => false
      if bytes + p.size < 4 then stringFrom (.code (bytes + p.size) (valid && isDigit)) k.line k.column rest
      else if valid && isDigit then stringFrom .plain k.line k.column rest
      else .error (if p.is '\n' then k.fail .invalidEscape else ⟨.invalidEscape, line, column + (4 - bytes)⟩)

/-- Skips a string; its opening quote has been read. -/
def string (k : Cursor) : Except Error Cursor := stringFrom .plain k.line k.column k.rest

/-- Skips an exponent; the `e` has been seen. -/
def exponent (k : Cursor) : Except Error Cursor :=
  let k := (Number.sign k.next).2
  match Number.digits k with
  | ([], _) => .error (k.failNext .invalidNumber)
  | (_, after) => .ok after

/-- Skips a number; a sign before it has been read. -/
def number (k : Cursor) : Except Error Cursor :=
  match Number.digits k with
  | ([], _) => .error (k.failNext .invalidNumber)
  | (0 :: _ :: _, _) => .error (k.next.failNext .invalidNumber)
  | (_, after) =>
    if after.peek = some '.' then
      match Number.digits after.next with
      | ([], k) => .error (k.failNext .invalidNumber)
      | (_, k) => if k.peek.any Number.isExponentMark then exponent k else .ok k
    else if after.peek.any Number.isExponentMark then exponent after
    else .ok after

/-- Skips a value that starts with `c` and is no array and no object. -/
def scalar (c : Char) (k : Cursor) : Except Error Cursor :=
  if c = 'n' then readWord k.next "ull".toList
  else if c = 't' then readWord k.next "rue".toList
  else if c = 'f' then readWord k.next "alse".toList
  else if c = '-' then number k.next
  else if c.isDigit then number k
  else if c = '"' then string k.next
  else .error (k.failNext .expectedValue)

/-- What is open around a skipped value. -/
inductive Frame where
  | array
  | object

namespace Frame

def close : Frame → Char
  | array => ']'
  | object => '}'

def atEnd : Frame → Cause
  | array => .endInList
  | object => .endInObject

def atOther : Frame → Cause
  | array => .expectedListEnd
  | object => .expectedObjectEnd

/-- Skips what stands in front of a value: in an object, its key. -/
def lead : Frame → Cursor → Except Error Cursor
  | array, k => .ok k
  | object, k => do
    let k := k.skipSpace
    match k.rest with
    | [] => .error (k.failNext .endInObject)
    | p :: _ =>
      if p.is '"' then
        let k ← string k.next
        readColon k
      else .error (k.failNext .keyNotString)

end Frame

/-- What is being skipped: a value, or what may follow in the innermost of what is open. -/
inductive Task where
  | value
  | more (isFirst : Bool)

/-- Skips a value and the rest of all that is open around it. `fuel` bounds the steps. -/
def perform : Nat → Task → List Frame → Cursor → Except Error Cursor
  | 0, _, _, k => .error (k.fail .tooDeep)
  | fuel + 1, .value, frames, k => do
    let k := k.skipSpace
    match k.rest with
    | [] => .error (k.failNext .endInValue)
    | .illFormed _ :: _ => .error (k.failNext .expectedValue)
    | .char c :: _ =>
      if c = '[' then perform fuel (.more true) (.array :: frames) k.next
      else if c = '{' then perform fuel (.more true) (.object :: frames) k.next
      else
        let k ← scalar c k
        perform fuel (.more false) frames k
  | _ + 1, .more _, [], k => .ok k
  | fuel + 1, .more isFirst, frame :: frames, k => do
    let k := k.skipSpace
    match k.rest with
    | [] => .error (k.failNext frame.atEnd)
    | p :: _ =>
      if p.is frame.close then perform fuel (.more false) frames k.next
      else if isFirst then
        let k ← frame.lead k
        perform fuel .value (frame :: frames) k
      else if p.is ',' then
        let k ← frame.lead k.next
        perform fuel .value (frame :: frames) k
      else .error (k.failNext frame.atOther)

/-- Skips a value, in at most two steps for each piece. -/
def value (k : Cursor) : Except Error Cursor := perform (2 * k.rest.length + 1) .value [] k

end Skipped

end PrototypeScan.Json
