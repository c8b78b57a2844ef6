import PrototypeScan.Number.Binary64

/-!
Decimal notation: the digits of a text as a number, the double nearest to a decimal, and the shortest
decimal that reads back as a given double.
-/
namespace PrototypeScan.Decimal

/-- The value of a digit in bases up to sixteen, letters in either case. -/
def digitValue (c : Char) : Option Nat :=
  if '0' ≤ c && c ≤ '9' then some (c.toNat - '0'.toNat)
  else if 'a' ≤ c && c ≤ 'f' then some (c.toNat - 'a'.toNat + 10)
  else if 'A' ≤ c && c ≤ 'F' then some (c.toNat - 'A'.toNat + 10)
  else none

/-- Reads on from a value; none at a character that is no digit of the base. -/
def readDigits (base : Nat) : Nat → List Char → Option Nat
  | value, [] => some value
  | value, c :: rest => match digitValue c with
    | some d => if d < base then readDigits base (base * value + d) rest else none
    | none => none

/-- The number that a text of one or more digits denotes. -/
def ofDigits (base : Nat) : List Char → Option Nat
  | [] => none
  | cs => readDigits base 0 cs

/-- The value of digits only, in base ten. -/
def value (digits : List Char) : Nat := (readDigits 10 0 digits).getD 0

/-- The double nearest to `digits * 10 ^ exponent`. Exponents outside of the range of doubles are cut
off before any power is taken. -/
def nearest (negative : Bool) (digits : Nat) (exponent : Int) : Binary64 :=
  let size : Int := digits.log2 / 3
  if exponent > 400 && digits ≠ 0 then ⟨.ofNat (Binary64.signBit negative + Binary64.infinityBits)⟩
  else if exponent + size < -400 then ⟨.ofNat (Binary64.signBit negative)⟩
  else if exponent ≥ 0 then .ofRatio negative (digits * tenTo exponent.toNat) 1
  else .ofRatio negative digits (tenTo (-exponent).toNat)

/-- A decimal in its parts: digits before and behind the point, and the exponent behind an `e`. -/
structure Parts where
  whole : List Char
  fraction : List Char
  exponent : Int
  deriving DecidableEq, Repr

/-- Splits a decimal. There is a digit before or behind the point, and one in an exponent. -/
def parts? (text : List Char) : Option Parts :=
  let whole := text.takeWhile Char.isDigit
  let (fraction, rest) := match text.dropWhile Char.isDigit with
    | '.' :: r => (r.takeWhile Char.isDigit, r.dropWhile Char.isDigit)
    | r => ([], r)
  if whole.isEmpty && fraction.isEmpty then none
  else match rest with
    | [] => some ⟨whole, fraction, 0⟩
    | e :: r =>
      if e = 'e' || e = 'E' then
        let (negative, digits) := match r with
          | '-' :: ds => (true, ds)
          | '+' :: ds => (false, ds)
          | ds => (false, ds)
        (ofDigits 10 digits).map fun n => ⟨whole, fraction, if negative then -n else n⟩
      else none

/-- The double nearest to an unsigned decimal. -/
def read? (text : List Char) : Option Binary64 :=
  (parts? text).map fun p =>
    nearest false (value (p.whole ++ p.fraction)) (p.exponent - p.fraction.length)

/-- The double nearest to a decimal with a sign or without, or the infinity or NaN that a word in either
case names. -/
def readSigned? (text : List Char) : Option Binary64 :=
  let (negative, unsigned) := match text with
    | '-' :: cs => (true, cs)
    | '+' :: cs => (false, cs)
    | cs => (false, cs)
  let word := String.ofList (unsigned.map Char.toLower)
  let magnitude : Option Binary64 :=
    if word = "inf" || word = "infinity" then some .infinity
    else if word = "nan" then some .nan
    else read? unsigned
  magnitude.map fun x => if negative then x.neg else x

/-- The point of a grid with step `10 ^ -places` (or `10 ^ -places` above one) nearest to a quotient,
in steps, and the next lower and higher ones. -/
def neighbours (num den : Nat) (places : Int) : List Nat :=
  let q := if places ≥ 0 then num * tenTo places.toNat / den else num / (den * tenTo (-places).toNat)
  [q, q + 1]

/-- The distance of `steps * 10 ^ -places` from a quotient, over a common denominator. -/
def distance (num den : Nat) (places : Int) (steps : Nat) : Nat :=
  let (a, b) := if places ≥ 0 then (num * tenTo places.toNat, steps * den)
    else (num, steps * den * tenTo (-places).toNat)
  if a ≥ b then a - b else b - a

/-- The shortest decimal that reads back: its digits, and how many of them stand behind the point. Of
two equally short ones the nearer is taken. -/
def shortest (x : Binary64) : Nat × Int :=
  let (num, den) := x.ratio
  if num = 0 then (0, 0)
  else
    let magnitude : Int := ((num.log2 : Int) - den.log2) * 30103 / 100000
    let readsBack (places : Int) (steps : Nat) : Bool :=
      (nearest false steps (-places)).magnitude = x.magnitude
    let rec search : Nat → Int → Nat × Int
      | 0, places => (num * tenTo places.toNat / den, places)
      | fuel + 1, places =>
        match (neighbours num den places).filter (readsBack places) with
        | [] => search fuel (places + 1)
        | s :: ss => (ss.foldl (fun best c =>
            if distance num den places c < distance num den places best then c else best) s, places)
    search 40 (-magnitude - 1)

/-- A double without an exponent, in the fewest digits that read back. -/
def plainText (x : Binary64) : String :=
  let sign := if x.isNegative && !x.isNaN then "-" else ""
  if x.isNaN then "NaN"
  else if x.isInfinite then sign ++ "inf"
  else
    let (digits, places) := shortest x
    let ds := (toString digits).toList
    let body :=
      if places ≤ 0 then String.ofList (ds ++ List.replicate (-places).toNat '0')
      else
        let n := places.toNat
        let padded := List.replicate (n + 1 - ds.length) '0' ++ ds
        let split := padded.length - n
        String.ofList (padded.take split ++ '.' :: padded.drop split)
    sign ++ body

end PrototypeScan.Decimal
