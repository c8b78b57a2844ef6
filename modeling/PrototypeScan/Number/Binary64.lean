/-!
Double-precision numbers by their bits. Every operation is exact arithmetic on natural numbers followed
by one rounding: to the nearest representable number, of two equally near ones to the even one.
-/
namespace PrototypeScan

abbrev twoTo (n : Nat) : Nat := Nat.pow 2 n

abbrev tenTo (n : Nat) : Nat := Nat.pow 10 n

/-- A double, as its 64 bits: sign, eleven bits of exponent, 52 bits of fraction. -/
structure Binary64 where
  bits : UInt64
  deriving DecidableEq, Repr, Inhabited

namespace Binary64

/-- The quotient rounded to the nearest integer, a half to the even neighbour. -/
def roundedQuotient (num den : Nat) : Nat :=
  let q := num / den
  let r := num % den
  if 2 * r > den || (2 * r = den && q % 2 = 1) then q + 1 else q

/-- The least exponent of a unit in the last place. -/
def leastExponent : Int := -1074

/-- The exponent of the unit in the last place for a quotient: its significand has 53 bits, or fewer
where the exponent is the least one. -/
def unitExponent (num den : Nat) : Int :=
  let q : Int := (num.log2 : Int) - den.log2 - 52
  let short := if q ≥ 0 then num < twoTo 52 * (den * twoTo q.toNat)
    else num * twoTo (-q).toNat < twoTo 52 * den
  max (if short then q - 1 else q) leastExponent

/-- `num / den` in units of `2 ^ q`, rounded. -/
def scaled (num den : Nat) (q : Int) : Nat :=
  if q ≥ 0 then roundedQuotient num (den * twoTo q.toNat)
  else roundedQuotient (num * twoTo (-q).toNat) den

def signBit (negative : Bool) : Nat := if negative then twoTo 63 else 0

def infinityBits : Nat := 0x7FF * twoTo 52

/-- The double nearest to `num / den`, with a sign; infinite from half a unit above the largest. -/
def ofRatio (negative : Bool) (num den : Nat) : Binary64 :=
  if num = 0 || den = 0 then ⟨.ofNat (signBit negative)⟩
  else
    let q := unitExponent num den
    let m := scaled num den q
    let magnitude := if m < twoTo 52 then m else (q + 1075).toNat * twoTo 52 + (m - twoTo 52)
    ⟨.ofNat (signBit negative + min magnitude infinityBits)⟩

def ofNat (n : Nat) : Binary64 := ofRatio false n 1

def ofInt (i : Int) : Binary64 := ofRatio (i < 0) i.natAbs 1

def zero : Binary64 := ⟨0⟩

def infinity : Binary64 := ⟨.ofNat infinityBits⟩

def nan : Binary64 := ⟨.ofNat (infinityBits + twoTo 51)⟩

def isNegative (x : Binary64) : Bool := x.bits.toNat ≥ twoTo 63

/-- The bits without the sign. -/
def magnitude (x : Binary64) : Nat := x.bits.toNat % twoTo 63

def isZero (x : Binary64) : Bool := x.magnitude = 0

def isInfinite (x : Binary64) : Bool := x.magnitude = infinityBits

def isNaN (x : Binary64) : Bool := x.magnitude > infinityBits

def neg (x : Binary64) : Binary64 := ⟨.ofNat ((x.bits.toNat + twoTo 63) % twoTo 64)⟩

/-- The significand and the exponent of the last place: a finite number is their product, the exponent
taken to the base two, up to its sign. -/
def parts (x : Binary64) : Nat × Int :=
  let exponent : Nat := x.magnitude / twoTo 52
  let fraction : Nat := x.magnitude % twoTo 52
  if exponent = 0 then (fraction, leastExponent) else (fraction + twoTo 52, (exponent : Int) - 1075)

/-- A finite number without its sign, as a quotient. -/
def ratio (x : Binary64) : Nat × Nat :=
  let (m, q) := x.parts
  if q ≥ 0 then (m * twoTo q.toNat, 1) else (m, twoTo (-q).toNat)

/-- The product of finite numbers. -/
def mul (x y : Binary64) : Binary64 :=
  let (a, b) := x.ratio
  let (c, d) := y.ratio
  ofRatio (x.isNegative != y.isNegative) (a * c) (b * d)

/-- The quotient of finite numbers; the divisor is not zero. -/
def div (x y : Binary64) : Binary64 :=
  let (a, b) := x.ratio
  let (c, d) := y.ratio
  ofRatio (x.isNegative != y.isNegative) (a * d) (b * c)

/-- Equality of values: no NaN equals anything, and the two zeros are equal. -/
def same (x y : Binary64) : Bool :=
  !x.isNaN && !y.isNaN && (x.bits == y.bits || (x.isZero && y.isZero))

/-- The nearest integer, a half away from zero; none for what is not finite. -/
def toInt? (x : Binary64) : Option Int :=
  if x.magnitude ≥ infinityBits then none
  else
    let (num, den) := x.ratio
    let n := (2 * num + den) / (2 * den)
    some (if x.isNegative then -n else n)

end Binary64

end PrototypeScan
