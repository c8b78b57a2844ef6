import PrototypeScan.Number.Decimal

/-!
Backslashes in what scripts print, and printing after a pattern.
-/
namespace PrototypeScan.Shell

def bytesOf (cs : List Char) : List UInt8 := (String.ofList cs).toUTF8.toList

def isOctal (c : Char) : Bool := '0' ≤ c && c ≤ '7'

/-- The byte that up to three octal digits denote, and what follows them. -/
def octal (cs : List Char) : UInt8 × List Char :=
  let ds := (cs.take 3).takeWhile isOctal
  (.ofNat ((Decimal.ofDigits 8 ds).getD 0), cs.drop ds.length)

/-- What a letter behind a backslash stands for. -/
def letterEscape? : Char → Option UInt8
  | 'a' => some 7
  | 'b' => some 8
  | 'f' => some 12
  | 'n' => some 10
  | 'r' => some 13
  | 't' => some 9
  | 'v' => some 11
  | '\\' => some 92
  | _ => none

/-- The bytes of a text with escapes, and whether printing goes on behind it. In `leading` texts an octal
number may have a further zero in front. -/
def unescape (leading : Bool) : Nat → List Char → List UInt8 × Bool
  | 0, _ => ([], true)
  | fuel + 1, cs => match cs with
    | [] => ([], true)
    | '\\' :: 'c' :: _ => ([], false)
    | '\\' :: c :: rest =>
      let (bytes, after) :=
        if isOctal c then
          let digits := if leading && c = '0' && rest.head?.any isOctal then rest else c :: rest
          let (b, after) := octal digits
          ([b], after)
        else match letterEscape? c with
          | some b => ([b], rest)
          | none => ('\\'.toNat.toUInt8 :: bytesOf [c], rest)
      let (more, goesOn) := unescape leading fuel after
      (bytes ++ more, goesOn)
    | c :: rest =>
      let (more, goesOn) := unescape leading fuel rest
      (bytesOf [c] ++ more, goesOn)

/-- The integer that a text denotes; zero if there is none. -/
def integerOf (s : String) : Int :=
  match s.toList with
  | '-' :: ds => -(((Decimal.ofDigits 10 ds).getD 0 : Nat) : Int)
  | '+' :: ds => ((Decimal.ofDigits 10 ds).getD 0 : Nat)
  | ds => ((Decimal.ofDigits 10 ds).getD 0 : Nat)

def inBase (base : Nat) (i : Int) : String := String.ofList (Nat.toDigits base i.toNat)

/-- What a conversion makes of an argument. -/
def converted (conversion : Char) (argument : String) : Option (List UInt8) :=
  match conversion with
  | 's' => some (bytesOf argument.toList)
  | 'b' => some (unescape true (argument.length + 1) argument.toList).1
  | 'c' => some (bytesOf (argument.toList.take 1))
  | 'd' | 'i' => some (bytesOf (toString (integerOf argument)).toList)
  | 'u' => some (bytesOf (toString (integerOf argument).toNat).toList)
  | 'x' => some (bytesOf (inBase 16 (integerOf argument)).toList)
  | 'o' => some (bytesOf (inBase 8 (integerOf argument)).toList)
  | _ => none

/-- Prints arguments after a pattern once: the bytes, and the arguments that are left. -/
def formattedOnce : Nat → List Char → List String → List UInt8 × List String
  | 0, _, arguments => ([], arguments)
  | fuel + 1, pattern, arguments => match pattern with
    | [] => ([], arguments)
    | '%' :: '%' :: rest =>
      let (more, left) := formattedOnce fuel rest arguments
      ('%'.toNat.toUInt8 :: more, left)
    | '%' :: c :: rest =>
      match converted c (arguments.head?.getD "") with
      | some bytes =>
        let (more, left) := formattedOnce fuel rest (arguments.drop 1)
        (bytes ++ more, left)
      | none => ([], [])
    | _ =>
      let plain := if pattern.head? = some '%' then ['%'] else pattern.takeWhile (· ≠ '%')
      let (more, left) := formattedOnce fuel (pattern.drop plain.length) arguments
      ((unescape false (plain.length + 1) plain).1 ++ more, left)

/-- Prints arguments after a pattern, again and again while there are arguments left and the pattern takes
some. -/
def formatted : Nat → List Char → List String → List UInt8
  | 0, _, _ => []
  | fuel + 1, pattern, arguments =>
    let (bytes, left) := formattedOnce (pattern.length + 1) pattern arguments
    if left.isEmpty || left.length = arguments.length then bytes
    else bytes ++ formatted fuel pattern left

end PrototypeScan.Shell
