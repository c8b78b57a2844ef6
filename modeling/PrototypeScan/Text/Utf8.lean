/-!
Bytes as text. A sequence of bytes is cut into characters and ill-formed runs; each such run is as long
as it could still have become a character, and reads as one replacement character where text is needed.
-/
namespace PrototypeScan.Text

/-- A character, or a run of bytes that is none. -/
inductive Piece where
  | char (c : Char)
  | illFormed (bytes : Nat)
  deriving DecidableEq, Repr

namespace Piece

/-- The number of bytes of a piece. -/
def size : Piece → Nat
  | char c => c.utf8Size
  | illFormed n => n

/-- Whether a piece is the given character. -/
def is (p : Piece) (c : Char) : Bool := p = char c

end Piece

/-- What a leading byte announces: its own bits, the range of the byte behind it, and how many bytes
follow. -/
def leading? (b : UInt8) : Option (Nat × Nat × Nat × Nat) :=
  let n := b.toNat
  if 0xC2 ≤ n && n ≤ 0xDF then some (n - 0xC0, 0x80, 0xBF, 1)
  else if n = 0xE0 then some (0, 0xA0, 0xBF, 2)
  else if n = 0xED then some (0xD, 0x80, 0x9F, 2)
  else if 0xE1 ≤ n && n ≤ 0xEF then some (n - 0xE0, 0x80, 0xBF, 2)
  else if n = 0xF0 then some (0, 0x90, 0xBF, 3)
  else if 0xF1 ≤ n && n ≤ 0xF3 then some (n - 0xF0, 0x80, 0xBF, 3)
  else if n = 0xF4 then some (4, 0x80, 0x8F, 3)
  else none

/-- A character that is not complete: the code so far, the range of the next byte, how many bytes are
missing, and how many have been read. -/
structure Unfinished where
  code : Nat
  low : Nat
  high : Nat
  missing : Nat
  read : Nat

/-- What a byte starts. -/
def startPiece (b : UInt8) : Except Piece Unfinished :=
  if b.toNat < 0x80 then .error (.char (Char.ofNat b.toNat))
  else match leading? b with
    | some (code, low, high, missing) => .ok ⟨code, low, high, missing, 1⟩
    | none => .error (.illFormed 1)

/-- Cuts bytes into pieces, given the character that is being read. -/
def piecesFrom : Option Unfinished → List UInt8 → List Piece
  | none, [] => []
  | some p, [] => [.illFormed p.read]
  | none, b :: rest => match startPiece b with
    | .error piece => piece :: piecesFrom none rest
    | .ok p => piecesFrom (some p) rest
  | some p, b :: rest =>
    if p.low ≤ b.toNat && b.toNat ≤ p.high then
      let code := p.code * 64 + (b.toNat - 0x80)
      if p.missing = 1 then .char (Char.ofNat code) :: piecesFrom none rest
      else piecesFrom (some ⟨code, 0x80, 0xBF, p.missing - 1, p.read + 1⟩) rest
    else match startPiece b with
      | .error piece => .illFormed p.read :: piece :: piecesFrom none rest
      | .ok q => .illFormed p.read :: piecesFrom (some q) rest

/-- The pieces of a sequence of bytes. -/
def pieces (bytes : List UInt8) : List Piece := piecesFrom none bytes

/-- The pieces of a text. -/
def piecesOf (s : String) : List Piece := s.toList.map .char

/-- Bytes as text, ill-formed runs replaced. -/
def decodeLossy (bytes : List UInt8) : String :=
  String.ofList ((pieces bytes).map fun
    | .char c => c
    | .illFormed _ => Char.ofNat 0xFFFD)

end PrototypeScan.Text
