import PrototypeScan.Config.Setting
import PrototypeScan.Text.Split
import PrototypeScan.Toml.Moment

/-!
Values of TOML documents that stand without quotes: truth values, numbers, dates and times.
-/
namespace PrototypeScan.Toml

/-- Digits without the underscores between them. Every underscore has a digit on both sides. -/
def ungrouped? (isDigit : Char → Bool) (cs : List Char) : Option (List Char) :=
  let groups := Text.parts '_' cs
  if groups.all fun g => !g.isEmpty && g.all isDigit then some groups.flatten else none

/-- The digits of a number in base ten, which starts with a zero only if it has no other digit. -/
def whole? (cs : List Char) : Option (List Char) :=
  (ungrouped? Char.isDigit cs).filter fun ds => ds.head? ≠ some '0' || ds.length = 1

/-- An integer in 64 bits. -/
def integer? (negative : Bool) (n : Nat) : Option Setting :=
  if n < twoTo 63 || (negative && n = twoTo 63) then some (.integer (if negative then -n else n)) else none

/-- The digits behind a prefix that names the base. -/
def based? : List Char → Option (Nat × List Char)
  | '0' :: 'x' :: cs => some (16, cs)
  | '0' :: 'o' :: cs => some (8, cs)
  | '0' :: 'b' :: cs => some (2, cs)
  | _ => none

/-- The sign at the start of a number: whether it is negative, and the rest. -/
def signed : List Char → Bool × List Char
  | '-' :: cs => (true, cs)
  | '+' :: cs => (false, cs)
  | cs => (false, cs)

/-- The digits of a fraction, which may be missing, and the rest. -/
def fraction? : List Char → Option (List Char × List Char)
  | '.' :: cs =>
    let isPart (c : Char) := c.isDigit || c = '_'
    (ungrouped? Char.isDigit (cs.takeWhile isPart)).map fun ds => ('.' :: ds, cs.dropWhile isPart)
  | cs => some ([], cs)

/-- An exponent, which may be missing, at the end of a number. -/
def exponent? : List Char → Option (List Char)
  | [] => some []
  | e :: cs =>
    if e = 'e' || e = 'E' then
      let (negative, digits) := signed cs
      (ungrouped? Char.isDigit digits).map fun ds => 'e' :: (if negative then ['-'] else []) ++ ds
    else none

/-- A number in base ten without its sign. One that is too large for a double is none. -/
def number? (negative : Bool) (cs : List Char) : Option Setting := do
  let isPart (c : Char) := c.isDigit || c = '_'
  let ds ← whole? (cs.takeWhile isPart)
  match cs.dropWhile isPart with
  | [] => integer? negative (Decimal.value ds)
  | rest =>
    let (fraction, rest) ← fraction? rest
    let exponent ← exponent? rest
    let x ← Decimal.read? (ds ++ fraction ++ exponent)
    if x.isInfinite then none else some (.real (if negative then x.neg else x))

/-- The value of a word without quotes. -/
def scalar? (cs : List Char) : Option Setting :=
  let (negative, unsigned) := signed cs
  let word := String.ofList unsigned
  if cs = "true".toList then some (.bool true)
  else if cs = "false".toList then some (.bool false)
  else if word = "inf" then some (.real (if negative then Binary64.infinity.neg else .infinity))
  else if word = "nan" then some (.real (if negative then Binary64.nan.neg else .nan))
  else match based? cs with
    | some (base, digits) => do
      let isDigitOfBase (c : Char) := (Decimal.digitValue c).any (· < base)
      let ds ← ungrouped? isDigitOfBase digits
      let n ← Decimal.ofDigits base ds
      integer? false n
    | none => (number? negative unsigned).or ((Moment.read? cs).map .text)

end PrototypeScan.Toml
