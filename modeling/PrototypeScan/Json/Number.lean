import PrototypeScan.Json.Basic
import PrototypeScan.Json.Cursor

/-!
Numbers in JSON text. The digits are taken as one integer of 64 bits, as far as they fit, with a power of
ten; a number that is no integer is that integer, rounded to a double, times or over the power, rounded
once more. This is not always the nearest double.
-/
namespace PrototypeScan.Json.Number

def bound64 : Nat := twoTo 64

/-- The next digits, and the place behind them. -/
def digitsFrom (line column : Nat) : List Text.Piece → List Nat × Cursor
  | [] => ([], ⟨[], line, column⟩)
  | .char c :: rest =>
    if c.isDigit then
      let (ds, k) := digitsFrom line (column + 1) rest
      ((c.toNat - '0'.toNat) :: ds, k)
    else ([], ⟨.char c :: rest, line, column⟩)
  | p :: rest => ([], ⟨p :: rest, line, column⟩)

def digits (k : Cursor) : List Nat × Cursor := digitsFrom k.line k.column k.rest

/-- Appends digits to a significand until one would carry it beyond 64 bits. Yields how many fitted and
how many are left. -/
def absorb (significand : Nat) : List Nat → Nat × Nat × Nat
  | [] => (significand, 0, 0)
  | d :: ds =>
    if significand * 10 + d < bound64 then
      let (s, fitted, left) := absorb (significand * 10 + d) ds
      (s, fitted + 1, left)
    else (significand, 0, (d :: ds).length)

/-- The power of ten that a double is divided by as often as an exponent asks for it. -/
def hugePower : Nat := 308

/-- A double over or times a power of ten; none if that is out of range. -/
def scale (x : Binary64) (exponent : Int) : Option Binary64 :=
  if exponent ≥ 0 then
    if exponent ≤ hugePower then
      some (x.mul (.ofNat (tenTo exponent.toNat))) |>.filter (!·.isInfinite)
    else if x.isZero then some x else none
  else if exponent ≥ -hugePower then some (x.div (.ofNat (tenTo (-exponent).toNat)))
  else if x.isZero then some x
  else scale (x.div (.ofNat (tenTo hugePower))) (exponent + hugePower)
termination_by (-exponent).toNat
decreasing_by simp only [hugePower] at *; omega

/-- The double for a significand and a power of ten. -/
def finish (negative : Bool) (significand : Nat) (exponent : Int) (k : Cursor) :
    Except Error (Number × Cursor) :=
  match scale (.ofNat significand) exponent with
  | some x => .ok (.real (if negative then x.neg else x), k)
  | none => .error (k.fail .numberOutOfRange)

/-- The largest exponent that is read as one. -/
def exponentBound : Nat := twoTo 31

/-- Whether an exponent is negative, and the place behind its sign. -/
def sign (k : Cursor) : Bool × Cursor :=
  match k.peek with
  | some '+' => (false, k.next)
  | some '-' => (true, k.next)
  | _ => (false, k)

/-- The exponent of a number; the `e` has been seen. An exponent too large to be read makes the number
zero, or out of range. -/
def exponent (negative : Bool) (significand : Nat) (start : Int) (k : Cursor) :
    Except Error (Number × Cursor) :=
  let (down, k) := sign k.next
  match k.rest with
  | [] => .error (k.fail .endInValue)
  | _ => match digits k with
    | ([], _) => .error (k.failNext .invalidNumber)
    | (ds, after) =>
      let n := ds.foldl (fun n d => if n < exponentBound then n * 10 + d else n) 0
      if n < exponentBound then
        finish negative significand (if down then start - n else start + n) after
      else if significand ≠ 0 && !down then
        let read := (ds.foldl (fun (acc : Nat × Nat) d =>
          if acc.1 < exponentBound then (acc.1 * 10 + d, acc.2 + 1) else acc) (0, 0)).2
        .error (Error.mk .numberOutOfRange k.line (k.column + read))
      else .ok (.real (if negative then Binary64.zero.neg else .zero), after)

def isExponentMark (c : Char) : Bool := c = 'e' || c = 'E'

/-- The digits behind the point; the point has been seen. -/
def fraction (negative : Bool) (significand : Nat) (start : Int) (k : Cursor) :
    Except Error (Number × Cursor) :=
  let k := k.next
  match digits k with
  | ([], _) => match k.rest with
    | [] => .error (k.failNext .endInValue)
    | _ => .error (k.failNext .invalidNumber)
  | (ds, after) =>
    let (s, fitted, _) := absorb significand ds
    let e := start - fitted
    if after.peek.any isExponentMark then exponent negative s e after else finish negative s e after

/-- An integer, if it has 64 bits at most and is not the negative zero. -/
def whole (negative : Bool) (significand : Nat) : Number :=
  if !negative then .integer significand
  else if 0 < significand && significand ≤ twoTo 63 then .integer (-significand)
  else .real (Binary64.ofNat significand).neg

/-- Reads a number; a sign before it has been read. -/
def read (negative : Bool) (k : Cursor) : Except Error (Number × Cursor) :=
  match k.rest with
  | [] => .error (k.fail .endInValue)
  | _ => match digits k with
    | ([], _) => .error (k.failNext .invalidNumber)
    | (0 :: _ :: _, _) => .error (k.next.failNext .invalidNumber)
    | (ds, after) =>
      let (s, _, left) := absorb 0 ds
      match after.peek with
      | some '.' => fraction negative s left after
      | c =>
        if c.any isExponentMark then exponent negative s left after
        else if left > 0 then finish negative s left after
        else .ok (whole negative s, after)

end PrototypeScan.Json.Number
