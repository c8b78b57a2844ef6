import PrototypeScan.Number.Decimal

/-!
The value of a number literal. Digits with a radix letter, and octal digits behind a leading zero, have a
value up to 64 bits and none above; everything else is a decimal.
-/
namespace PrototypeScan.JavaScript.NumberLiteral

/-- The double nearest to a number of up to 64 bits, given by its digits. -/
def ofRadix (base : Nat) (digits : List Char) : Option Binary64 :=
  ((Decimal.ofDigits base digits).filter (· < twoTo 64)).map .ofNat

/-- The literal without separators and without the mark of big integers, in lower case. -/
def normalize (raw : String) : List Char :=
  let cs := (raw.toList.reverse.dropWhile (· = 'n')).reverse
  (cs.filter (· ≠ '_')).map Char.toLower

def isOctalDigit (c : Char) : Bool := '0' ≤ c && c ≤ '7'

/-- The value of a literal. -/
def value? (raw : String) : Option Binary64 :=
  match normalize raw with
  | '0' :: 'x' :: hex => ofRadix 16 hex
  | '0' :: 'o' :: octal => ofRadix 8 octal
  | '0' :: 'b' :: binary => ofRadix 2 binary
  | '0' :: d :: ds =>
    if (d :: ds).all isOctalDigit then ofRadix 8 (d :: ds) else Decimal.read? ('0' :: d :: ds)
  | cs => Decimal.read? cs

end PrototypeScan.JavaScript.NumberLiteral
