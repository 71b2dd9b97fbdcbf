import DeployPlan.Json.Basic
import DeployPlan.Binary64.Decimal

/-!
# JSON texts, read

A parameter of type `json` may be given as a text, which is read here.

## Main definitions

* `DeployPlan.Json.Number` — the parts of a written number, and the value they stand for.
* `DeployPlan.Json.parse?` — the value of a whole text.

## Implementation notes

Integers are kept exactly while they fit the sixty-four bits of one of the two integer ranges.
Every other number is a double that is computed in two roundings: the digits that fit sixty-four
bits are rounded, and the result is multiplied or divided by a rounded power of ten.  Arrays and
objects nest at most `127` deep.
-/

set_option autoImplicit false

namespace DeployPlan

namespace Json

/-! ## Numbers -/

namespace Number

/-- The numbers below this one fit sixty-four bits. -/
def wordLimit : Nat := Nat.pow 2 64

/-- Adds decimal digits to `n` while the result fits sixty-four bits, and gives back the digits
that were left. -/
def addDigits (n : Nat) : List Char → Nat × List Char
  | [] => (n, [])
  | c :: cs =>
    let next := n * 10 + (c.toNat - 48)
    if next < wordLimit then addDigits next cs else (n, c :: cs)

/-- The double of `10 ^ n`. -/
def power (n : Nat) : Binary64 := Binary64.ofNat (Nat.pow 10 n)

/-- `x · 10 ^ -n` by divisions through powers of at most `308`. -/
def scaleDown (x : Binary64) (n : Nat) : Binary64 :=
  if n ≤ 308 then x.div (power n)
  else if x.isZero then x
  else scaleDown (x.div (power 308)) (n - 308)
termination_by n

/-- `significand · 10 ^ exponent` in two roundings, if it is finite. -/
def scaled? (significand : Nat) (exponent : Int) : Option Binary64 :=
  let x := Binary64.ofNat significand
  if exponent < 0 then some (scaleDown x exponent.natAbs)
  else if exponent ≤ 308 then
    let y := x.mul (power exponent.natAbs)
    if y.isFinite then some y else none
  else if x.isZero then some x else none

/-- The greatest exponent that is computed with. -/
def exponentLimit : Nat := Nat.pow 2 31

/-- The double of the digits before and after the point and a written exponent. -/
def toBinary64? (whole fraction : List Char) (exponent : Option (Bool × Nat)) :
    Option Binary64 :=
  let (m, dropped) := addDigits 0 whole
  let (m, unused) := addDigits m fraction
  let shift : Int := dropped.length - (fraction.length - unused.length : Nat)
  match exponent with
  | none => scaled? m shift
  | some (negative, e) =>
    if exponentLimit ≤ e then
      if m ≠ 0 ∧ !negative then none else some Binary64.zero
    else scaled? m (shift + if negative then -(e : Int) else (e : Int))

/-- An exponent after its letter: an optional sign and digits. -/
def exponent? (cs : List Char) : Option ((Bool × Nat) × List Char) :=
  let (negative, cs) := match cs with
    | '+' :: more => (false, more)
    | '-' :: more => (true, more)
    | _ => (false, cs)
  (Text.natural? 10 (cs.takeWhile Text.isDigit)).map fun n =>
    ((negative, n), cs.dropWhile Text.isDigit)

/-- Reads the number at the start of a text. -/
def parse? (cs : List Char) : Option (Json × List Char) := do
  let (negative, cs) := match cs with
    | '-' :: more => (true, more)
    | _ => (false, cs)
  let whole := cs.takeWhile Text.isDigit
  let rest := cs.dropWhile Text.isDigit
  if whole.isEmpty || (whole.head? == some '0' && whole.length ≠ 1) then none
  let (fraction, rest) ← match rest with
    | '.' :: more =>
      let digits := more.takeWhile Text.isDigit
      if digits.isEmpty then none else some (some digits, more.dropWhile Text.isDigit)
    | _ => some (none, rest)
  let (exponent, rest) ← match rest with
    | c :: more =>
      if c == 'e' || c == 'E' then (exponent? more).map fun (e, rest) => (some e, rest)
      else some (none, rest)
    | [] => some (none, rest)
  let n ← Text.natural? 10 whole
  let exact := fraction.isNone && exponent.isNone
  if exact && !negative && n < wordLimit then return (.int n, rest)
  else if exact && negative && n ≠ 0 && n ≤ Nat.pow 2 63 then return (.int (-n), rest)
  else
    let x ← toBinary64? whole (fraction.getD []) exponent
    return (.float (if negative then x.neg else x), rest)

end Number

/-! ## Texts -/

/-- Four hexadecimal digits at the start of a text. -/
def hex4? : List Char → Option (Nat × List Char)
  | a :: b :: c :: d :: rest => (Text.natural? 16 [a, b, c, d]).map fun n => (n, rest)
  | _ => none

/-- The character of a `u` escape, which may take a second escape for its other half. -/
def unicodeEscape? (cs : List Char) : Option (Char × List Char) := do
  let (n, rest) ← hex4? cs
  if 0xD800 ≤ n ∧ n < 0xDC00 then
    match rest with
    | '\\' :: 'u' :: more =>
      let (m, rest) ← hex4? more
      if 0xDC00 ≤ m ∧ m < 0xE000 then
        return (Char.ofNat (0x10000 + (n - 0xD800) * 0x400 + (m - 0xDC00)), rest)
      else none
    | _ => none
  else if 0xDC00 ≤ n ∧ n < 0xE000 then none
  else return (Char.ofNat n, rest)

/-- The character of an escape after its backslash. -/
def escape? : List Char → Option (Char × List Char)
  | 'u' :: cs => unicodeEscape? cs
  | c :: cs => match c with
    | '"' => some ('"', cs)
    | '\\' => some ('\\', cs)
    | '/' => some ('/', cs)
    | 'b' => some (Char.ofNat 8, cs)
    | 'f' => some (Char.ofNat 12, cs)
    | 'n' => some ('\n', cs)
    | 'r' => some ('\r', cs)
    | 't' => some ('\t', cs)
    | _ => none
  | [] => none

/-- Reads a text after its opening quote; `acc` holds what was read, last character first.
Every step takes at least one character, so `fuel` need not exceed the length of the text. -/
def text? (fuel : Nat) (acc : List Char) (cs : List Char) : Option (String × List Char) :=
  match fuel with
  | 0 => none
  | fuel + 1 => match cs with
    | [] => none
    | '"' :: rest => some (String.ofList acc.reverse, rest)
    | '\\' :: rest => match escape? rest with
      | some (c, rest) => text? fuel (c :: acc) rest
      | none => none
    | c :: rest => if c.toNat < 32 then none else text? fuel (c :: acc) rest

/-! ## Values -/

/-- Whether a character may stand between the parts of a text. -/
def isSpace (c : Char) : Bool := c == ' ' || c == '\n' || c == '\t' || c == '\r'

/-- A text without the spaces at its start. -/
def skipSpace (cs : List Char) : List Char := cs.dropWhile isSpace

mutual

/-- Reads the value at the start of a text, arrays and objects at most `depth` deep. -/
def value? (fuel depth : Nat) (cs : List Char) : Option (Json × List Char) :=
  match fuel with
  | 0 => none
  | fuel + 1 => match skipSpace cs with
    | 'n' :: 'u' :: 'l' :: 'l' :: rest => some (.null, rest)
    | 't' :: 'r' :: 'u' :: 'e' :: rest => some (.bool true, rest)
    | 'f' :: 'a' :: 'l' :: 's' :: 'e' :: rest => some (.bool false, rest)
    | '"' :: rest => (text? (rest.length + 1) [] rest).map fun (s, rest) => (.str s, rest)
    | '[' :: rest =>
      if depth ≤ 1 then none
      else match skipSpace rest with
        | ']' :: rest => some (.arr [], rest)
        | rest => (items? fuel (depth - 1) [] rest).map fun (vs, rest) => (.arr vs, rest)
    | '{' :: rest =>
      if depth ≤ 1 then none
      else match skipSpace rest with
        | '}' :: rest => some (.obj [], rest)
        | rest => (entries? fuel (depth - 1) [] rest).map fun (es, rest) => (.object es, rest)
    | rest => Number.parse? rest

/-- Reads the items of an array up to its end; `acc` holds those that were read, last first. -/
def items? (fuel depth : Nat) (acc : List Json) (cs : List Char) :
    Option (List Json × List Char) :=
  match fuel with
  | 0 => none
  | fuel + 1 => do
    let (v, rest) ← value? fuel depth cs
    match skipSpace rest with
    | ',' :: rest => items? fuel depth (v :: acc) rest
    | ']' :: rest => some ((v :: acc).reverse, rest)
    | _ => none

/-- Reads the entries of an object up to its end; `acc` holds those that were read, last
first. -/
def entries? (fuel depth : Nat) (acc : List (String × Json)) (cs : List Char) :
    Option (List (String × Json) × List Char) :=
  match fuel with
  | 0 => none
  | fuel + 1 => match skipSpace cs with
    | '"' :: rest => do
      let (k, rest) ← text? (rest.length + 1) [] rest
      match skipSpace rest with
      | ':' :: rest =>
        let (v, rest) ← value? fuel depth rest
        match skipSpace rest with
        | ',' :: rest => entries? fuel depth ((k, v) :: acc) rest
        | '}' :: rest => some (((k, v) :: acc).reverse, rest)
        | _ => none
      | _ => none
    | _ => none

end

/-- The value of a whole text.  Between two values stands at least one character, which bounds
the number of steps. -/
def parse? (s : String) : Option Json :=
  let cs := s.toList
  match value? (2 * cs.length + 2) 128 cs with
  | some (v, rest) => if (skipSpace rest).isEmpty then some v else none
  | none => none

end Json

end DeployPlan
