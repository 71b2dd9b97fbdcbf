import DeployPlan.Binary64.Basic
import DeployPlan.Text.Blank

/-!
# Decimal texts of doubles

Reading takes the double nearest to the written decimal.  Writing takes the fewest digits that
read back as the same double, and of those the nearest.

## Main definitions

* `DeployPlan.Decimal` — a natural number times a power of ten.
* `Decimal.toBinary64` — the nearest double.
* `Decimal.parse?` — a decimal text with an optional point and exponent.
* `Binary64.shortest` — the fewest digits that read back.
* `Binary64.scientific`, `Binary64.positional` — the two layouts in use.
-/

set_option autoImplicit false

namespace DeployPlan

/-- The number `digits · 10 ^ exponent`. -/
structure Decimal where
  /-- The significant digits, read as one number. -/
  digits : Nat
  /-- The power of ten of the last digit. -/
  exponent : Int
  deriving DecidableEq, Inhabited

namespace Decimal

/-! ## Reading -/

/-- The double nearest to a decimal.  Beyond `10 ^ 310` all are infinite and below `10 ^ -330`
all are zero, so the powers that are written out stay small. -/
def toBinary64 (negative : Bool) (d : Decimal) : Binary64 :=
  let length : Int := (Nat.toDigits 10 d.digits).length
  if d.digits = 0 then Binary64.ofMagnitudeBits negative 0
  else if d.exponent + length > 310 then Binary64.infinity negative
  else if d.exponent + length < -330 then Binary64.ofMagnitudeBits negative 0
  else Binary64.ofRatio negative (d.digits * Nat.pow 10 d.exponent.toNat)
    (Nat.pow 10 (-d.exponent).toNat)

/-- An exponent: digits with an optional sign. -/
def exponent? (cs : List Char) : Option Int :=
  match cs with
  | '+' :: ds => (Text.natural? 10 ds).map Int.ofNat
  | '-' :: ds => (Text.natural? 10 ds).map fun n => -(n : Int)
  | ds => (Text.natural? 10 ds).map Int.ofNat

/-- The digits before and after the point and the exponent, as one decimal; there is at least
one digit. -/
def ofParts? (whole fraction : List Char) (exponent : Int) : Option Decimal :=
  (Text.natural? 10 (whole ++ fraction)).map fun n => ⟨n, exponent - fraction.length⟩

/-- Reads an unsigned decimal: digits, at most one point among or around them, and an optional
exponent. -/
def parse? (cs : List Char) : Option Decimal :=
  let whole := cs.takeWhile Text.isDigit
  let rest := cs.dropWhile Text.isDigit
  let (fraction, rest) := match rest with
    | '.' :: more => (more.takeWhile Text.isDigit, more.dropWhile Text.isDigit)
    | _ => ([], rest)
  match rest with
  | [] => ofParts? whole fraction 0
  | c :: more =>
    if c == 'e' || c == 'E' then (exponent? more).bind (ofParts? whole fraction) else none

/-- Reads a decimal with an optional sign as the nearest double. -/
def parseBinary64? (s : String) : Option Binary64 :=
  match s.toList with
  | '+' :: cs => (parse? cs).map (toBinary64 false)
  | '-' :: cs => (parse? cs).map (toBinary64 true)
  | cs => (parse? cs).map (toBinary64 false)

/-- Takes the zeros at the end of the digits into the exponent. -/
def normalize (d : Decimal) : Decimal :=
  let zeros := ((Nat.toDigits 10 d.digits).reverse.takeWhile (· == '0')).length
  if d.digits = 0 then ⟨0, 0⟩ else ⟨d.digits / Nat.pow 10 zeros, d.exponent + zeros⟩

end Decimal

namespace Binary64

/-! ## The fewest digits -/

/-- The exponent `e` with `10 ^ e ≤ num / den < 10 ^ (e + 1)`, for positive `num` and `den`. -/
def decimalExponent (num den : Nat) : Int :=
  if den ≤ num then ((Nat.toDigits 10 (num / den)).length : Int) - 1
  else
    let k := (Nat.toDigits 10 (den / num)).length
    if den ≤ num * Nat.pow 10 (k - 1) then 1 - (k : Int) else -(k : Int)

/-- Four times the distance from the significand to the lower end of the interval that rounds
to `x`: the gap below a power of two is half as wide. -/
def lowerQuarters (x : Binary64) : Nat :=
  if x.significand = Nat.pow 2 52 ∧ 1 < x.exponentField then 1 else 2

/-- Whether `d` lies in the interval of reals that round to the finite number `x`, whose ends
belong to it when the significand is even. -/
def roundsTo (x : Binary64) (d : Decimal) : Bool :=
  let unit := Nat.pow 2 x.scale.toNat
  let low := (4 * x.significand - x.lowerQuarters) * unit * Nat.pow 10 (-d.exponent).toNat
  let high := (4 * x.significand + 2) * unit * Nat.pow 10 (-d.exponent).toNat
  let value := d.digits * Nat.pow 10 d.exponent.toNat * (4 * x.denominator)
  if x.significand % 2 = 0 then low ≤ value && value ≤ high else low < value && value < high

/-- The neighbours of a positive finite number among the decimals of `n` digits that read back,
the nearer of the two if both do. -/
def neighbour? (x : Binary64) (n : Nat) : Option Decimal :=
  let grid := decimalExponent x.numerator x.denominator - n + 1
  let num := x.numerator * Nat.pow 10 (-grid).toNat
  let den := x.denominator * Nat.pow 10 grid.toNat
  let below : Decimal := ⟨num / den, grid⟩
  let above : Decimal := ⟨num / den + 1, grid⟩
  let nearer := if roundQuotient num den = num / den then below else above
  if x.roundsTo nearer then some nearer
  else if x.roundsTo below then some below
  else if x.roundsTo above then some above
  else none

/-- The decimal with the fewest digits that reads back as the finite number `x`, and of those
the nearest to it.  Seventeen digits always do. -/
def shortest (x : Binary64) : Decimal :=
  if x.significand = 0 then ⟨0, 0⟩
  else match (List.range 17).findSome? fun n => x.neighbour? (n + 1) with
    | some d => d.normalize
    | none => ⟨0, 0⟩

/-! ## Layouts -/

/-- The text of digits with a point after the first `point` of them, zeros filling the places
between the point and the digits. -/
def pointed (digits : List Char) (point : Int) : String :=
  let n : Int := digits.length
  if point ≤ 0 then
    String.ofList ("0.".toList ++ List.replicate (-point).toNat '0' ++ digits)
  else if n ≤ point then
    String.ofList (digits ++ List.replicate (point - n).toNat '0' ++ ".0".toList)
  else String.ofList (digits.take point.toNat ++ '.' :: digits.drop point.toNat)

/-- The text of a finite number in the layout of data formats: positional with a point while
the number lies between a hundred-thousandth and ten to the sixteenth, and one digit before the
point and an exponent beyond. -/
def scientific (x : Binary64) : String :=
  let sign := if x.isNegative then "-" else ""
  let d := x.shortest
  let digits := Nat.toDigits 10 d.digits
  let point := digits.length + d.exponent
  if x.isZero then sign ++ "0.0"
  else if -5 < point && point ≤ 16 then sign ++ pointed digits point
  else match digits with
    | [c] => sign ++ String.singleton c ++ "e" ++ toString (point - 1)
    | c :: cs => sign ++ String.ofList (c :: '.' :: cs) ++ "e" ++ toString (point - 1)
    | [] => sign

/-- The text of a finite number with all its places written out, and a point. -/
def positional (x : Binary64) : String :=
  let sign := if x.isNegative then "-" else ""
  let d := x.shortest
  let digits := Nat.toDigits 10 d.digits
  if x.isZero then sign ++ "0.0" else sign ++ pointed digits (digits.length + d.exponent)

end Binary64

end DeployPlan
