/-!
# Blank characters, trimming and splitting

Names, references and literals in a manifest are read after the blank characters around them
have been taken off.  "Blank" is the Unicode property `White_Space`.

## Main definitions

* `DeployPlan.Text.isBlank` — the property, as its twenty-five code points.
* `DeployPlan.Text.trim` — a text without the blanks at its two ends.
* `DeployPlan.Text.strip`, `stripStart` — a text without one given character at its ends.
* `DeployPlan.Text.splitAt`, `split` — the pieces of a text between separators.
* `DeployPlan.Text.after?` — what follows a given start, if the text starts so.
-/

set_option autoImplicit false

namespace DeployPlan

namespace Text

/-- The code points with the Unicode property `White_Space`. -/
def isBlank (c : Char) : Bool :=
  let n := c.toNat
  (9 ≤ n && n ≤ 13) || n == 0x20 || n == 0x85 || n == 0xA0 || n == 0x1680 ||
    (0x2000 ≤ n && n ≤ 0x200A) || n == 0x2028 || n == 0x2029 || n == 0x202F ||
    n == 0x205F || n == 0x3000

/-- A list of characters without those at its two ends that satisfy `p`. -/
def trimBoth (p : Char → Bool) (cs : List Char) : List Char :=
  ((cs.dropWhile p).reverse.dropWhile p).reverse

/-- A text without the blanks at its two ends. -/
def trim (s : String) : String := String.ofList (trimBoth isBlank s.toList)

/-- A text without the copies of `c` at its two ends. -/
def strip (c : Char) (s : String) : String := String.ofList (trimBoth (· == c) s.toList)

/-- A text without the copies of `c` at its start. -/
def stripStart (c : Char) (s : String) : String := String.ofList (s.toList.dropWhile (· == c))

/-- The pieces of a list of characters between the copies of `sep`; there is always one piece
more than there are separators. -/
def splitAt (sep : Char) : List Char → List (List Char)
  | [] => [[]]
  | c :: cs =>
    if c = sep then [] :: splitAt sep cs
    else match splitAt sep cs with
      | [] => [[c]]
      | piece :: pieces => (c :: piece) :: pieces

/-- The pieces of a text between the copies of `sep`. -/
def split (sep : Char) (s : String) : List String := (splitAt sep s.toList).map String.ofList

/-- What follows `start` in `s`, if `s` starts with it. -/
def after? (start s : String) : Option String :=
  if start.toList.isPrefixOf s.toList then some (String.ofList (s.toList.drop start.length))
  else none

/-- Whether `s` starts with `start`. -/
def startsWith (start s : String) : Bool := start.toList.isPrefixOf s.toList

/-- Whether `c` occurs in `s`. -/
def has (c : Char) (s : String) : Bool := s.toList.contains c

/-- The texts one after another with `sep` between them. -/
def join (sep : String) (pieces : List String) : String := sep.intercalate pieces

/-- A text padded with spaces on the right to a width of at least `n` characters. -/
def padRight (n : Nat) (s : String) : String :=
  s ++ String.ofList (List.replicate (n - s.length) ' ')

/-- The value of an ASCII digit of a base up to sixteen. -/
def digit? (base : Nat) (c : Char) : Option Nat :=
  let value? :=
    if '0' ≤ c ∧ c ≤ '9' then some (c.toNat - 48)
    else if 'a' ≤ c ∧ c ≤ 'f' then some (c.toNat - 87)
    else if 'A' ≤ c ∧ c ≤ 'F' then some (c.toNat - 55)
    else none
  value?.filter (· < base)

/-- Whether `c` is an ASCII decimal digit. -/
def isDigit (c : Char) : Bool := '0' ≤ c && c ≤ '9'

/-- The number that a non-empty list of digits of a base up to sixteen writes. -/
def natural? (base : Nat) (cs : List Char) : Option Nat :=
  if cs.isEmpty then none
  else cs.foldl (fun acc c => do return (← acc) * base + (← digit? base c)) (some 0)

/-- The digits of `n` in a base up to sixteen, in small letters, at least `width` of them. -/
def digits (base width n : Nat) : String :=
  let ds := Nat.toDigits base n
  String.ofList (List.replicate (width - ds.length) '0' ++ ds)

end Text

end DeployPlan
