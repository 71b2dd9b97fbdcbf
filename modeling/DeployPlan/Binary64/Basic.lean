/-!
# Double-precision numbers

A number with a point is kept as the sixty-four bits of its double-precision form, and all
arithmetic on it is exact arithmetic on natural numbers followed by one rounding.

## Main definitions

* `DeployPlan.Binary64` — the bit pattern.
* `Binary64.significand`, `Binary64.scale` — the magnitude of a finite number is
  `significand · 2 ^ scale`.
* `Binary64.ofRatio` — the double nearest to a quotient of two natural numbers, a half going to
  the even neighbour.
* `Binary64.mul`, `Binary64.div` — products and quotients of magnitudes, rounded once.
-/

set_option autoImplicit false

namespace DeployPlan

/-- A double-precision number, as its bit pattern. -/
structure Binary64 where
  /-- Sign, eleven bits of exponent, fifty-two bits of fraction. -/
  bits : UInt64
  deriving DecidableEq, Inhabited

namespace Binary64

/-! ## The parts of a number -/

/-- Whether the sign bit is set. -/
def isNegative (x : Binary64) : Bool := Nat.pow 2 63 ≤ x.bits.toNat

/-- The pattern without its sign. -/
def magnitudeBits (x : Binary64) : Nat := x.bits.toNat % Nat.pow 2 63

/-- The pattern of infinity; larger ones are not numbers. -/
def infinityBits : Nat := 2047 * Nat.pow 2 52

/-- Whether the number is finite. -/
def isFinite (x : Binary64) : Bool := x.magnitudeBits < infinityBits

/-- Whether the pattern is not a number. -/
def isNaN (x : Binary64) : Bool := infinityBits < x.magnitudeBits

/-- Whether the number is zero, of either sign. -/
def isZero (x : Binary64) : Bool := x.magnitudeBits == 0

/-- The eleven bits of the exponent. -/
def exponentField (x : Binary64) : Nat := x.magnitudeBits / Nat.pow 2 52

/-- The integer whose multiple by `2 ^ scale` is the magnitude of a finite number. -/
def significand (x : Binary64) : Nat :=
  let fraction := x.magnitudeBits % Nat.pow 2 52
  if x.exponentField = 0 then fraction else Nat.pow 2 52 + fraction

/-- The power of two that the significand counts. -/
def scale (x : Binary64) : Int := (max x.exponentField 1 : Nat) - 1075

/-- The number with a given magnitude pattern and sign. -/
def ofMagnitudeBits (negative : Bool) (n : Nat) : Binary64 :=
  ⟨UInt64.ofNat (if negative then Nat.pow 2 63 + n else n)⟩

/-- Zero. -/
def zero : Binary64 := ⟨0⟩

/-- Infinity of a given sign. -/
def infinity (negative : Bool) : Binary64 := ofMagnitudeBits negative infinityBits

/-- The pattern that stands for "not a number". -/
def nan : Binary64 := ofMagnitudeBits false (infinityBits + Nat.pow 2 51)

/-- The number of the opposite sign. -/
def neg (x : Binary64) : Binary64 := ofMagnitudeBits (!x.isNegative) x.magnitudeBits

/-- Equality of numbers: the two zeros are equal, and so are any two patterns that are not
numbers. -/
def same (x y : Binary64) : Bool :=
  x.bits == y.bits || (x.isZero && y.isZero) || (x.isNaN && y.isNaN)

/-! ## Rounding -/

/-- The natural number nearest to `num / den`, a half going to the even neighbour. -/
def roundQuotient (num den : Nat) : Nat :=
  let q := num / den
  let r := num % den
  if 2 * r < den then q
  else if 2 * r = den then q + q % 2
  else q + 1

/-- The exponent `k` with `2 ^ k ≤ num / den < 2 ^ (k + 1)`, for positive `num` and `den`. -/
def binaryExponent (num den : Nat) : Int :=
  let k : Int := num.log2 - den.log2
  if num * Nat.pow 2 (-k).toNat < den * Nat.pow 2 k.toNat then k - 1 else k

/-- The double nearest to `num / den`, a half going to the even neighbour; infinity beyond the
largest double. -/
def ofRatio (negative : Bool) (num den : Nat) : Binary64 :=
  if num = 0 then ofMagnitudeBits negative 0
  else
    let q := max (binaryExponent num den - 52) (-1074)
    let m := roundQuotient (num * Nat.pow 2 (-q).toNat) (den * Nat.pow 2 q.toNat)
    ofMagnitudeBits negative (min ((q + 1074).toNat * Nat.pow 2 52 + m) infinityBits)

/-- The double nearest to a natural number. -/
def ofNat (n : Nat) : Binary64 := ofRatio false n 1

/-- The numerator of the magnitude of a finite number. -/
def numerator (x : Binary64) : Nat := x.significand * Nat.pow 2 x.scale.toNat

/-- The denominator of the magnitude of a finite number, a power of two. -/
def denominator (x : Binary64) : Nat := Nat.pow 2 (-x.scale).toNat

/-- The product of two finite numbers of positive sign. -/
def mul (x y : Binary64) : Binary64 :=
  ofRatio false (x.numerator * y.numerator) (x.denominator * y.denominator)

/-- The quotient of two finite numbers of positive sign, the second not zero. -/
def div (x y : Binary64) : Binary64 :=
  ofRatio false (x.numerator * y.denominator) (x.denominator * y.numerator)

end Binary64

end DeployPlan
