import DeployPlan.Yaml.Lexeme
import DeployPlan.Yaml.Value

/-!
# What a scalar stands for

One scalar can be read in several ways, and the place it stands in decides.  A field for a text
takes its characters as they are, a field for an integer takes the number they write, and a free
value takes whatever they look like.

## Main definitions

* `DeployPlan.Yaml.Scalar` — the readings of a scalar.
* `Scalar.integer?`, `Scalar.float?`, `Scalar.plainValue?` — what plain characters look like.
* `Scalar.ofText` — the readings of a written scalar.
* `Scalar.ofValue` — the readings of a value that is no collection.
-/

set_option autoImplicit false

namespace DeployPlan

namespace Yaml

/-- The readings of a scalar. -/
structure Scalar where
  /-- What a field for a text reads. -/
  text : Option String
  /-- What a field for an integer of sixty-four bits reads. -/
  integer : Option Int
  /-- Whether a mapping without entries can be read. -/
  blank : Bool
  /-- Whether an optional field reads it as left out; `none` if the tag says so and the characters
  do not. -/
  absent : Option Bool
  /-- What a free value reads; `none` if the characters contradict the tag, or write an integer
  that is out of range. -/
  value : Option Value
  deriving Inhabited

namespace Scalar

/-! ## Words and numbers -/

/-- The words for null. -/
def isNullWord (s : String) : Bool := s == "null" || s == "Null" || s == "NULL" || s == "~"

/-- The words for the truth values. -/
def bool? (s : String) : Option Bool :=
  if s == "true" || s == "True" || s == "TRUE" then some true
  else if s == "false" || s == "False" || s == "FALSE" then some false
  else none

/-- Several digits that start with a zero are not a decimal number, whatever their sign. -/
def isPaddedDigits (cs : List Char) : Bool :=
  let digits := match cs with
    | '-' :: ds => ds
    | '+' :: ds => ds
    | ds => ds
  1 < digits.length && digits.head? == some '0' && digits.all Text.isDigit

/-- The number behind an optional base mark. -/
def magnitude? : List Char → Option Nat
  | '0' :: 'x' :: ds => Text.natural? 16 ds
  | '0' :: 'o' :: ds => Text.natural? 8 ds
  | '0' :: 'b' :: ds => Text.natural? 2 ds
  | ds => Text.natural? 10 ds

/-- The integer that the characters write: a sign, a base mark, digits. -/
def integer? (cs : List Char) : Option Int :=
  if isPaddedDigits cs then none
  else match cs with
    | '-' :: ds => (magnitude? ds).map fun n => -(n : Int)
    | '+' :: ds => (magnitude? ds).map Int.ofNat
    | ds => (magnitude? ds).map Int.ofNat

/-- Whether an integer is a value: it fits sixty-four bits, as a signed or an unsigned number. -/
def inRange (n : Int) : Bool := -(Int.pow 2 63) ≤ n && n < Int.pow 2 64

/-- Whether an integer is out of range and yet taken for one: it fits `128` bits. -/
def outOfRange (n : Int) : Bool := !inRange n && -(Int.pow 2 127) ≤ n && n < Int.pow 2 128

/-- The float that the characters write: infinity, not a number, or a finite decimal. -/
def float? (s : String) : Option Binary64 :=
  if [".inf", ".Inf", ".INF", "+.inf", "+.Inf", "+.INF"].contains s then
    some (Binary64.infinity false)
  else if ["-.inf", "-.Inf", "-.INF"].contains s then some (Binary64.infinity true)
  else if [".nan", ".NaN", ".NAN"].contains s then some Binary64.nan
  else (Decimal.parseBinary64? s).filter Binary64.isFinite

/-! ## Free values -/

/-- The value that plain characters look like; `none` for an integer out of range. -/
def plainValue? (s : String) : Option Value :=
  if s.isEmpty || isNullWord s then some .null
  else match bool? s with
    | some b => some (.bool b)
    | none =>
      let number? := (integer? s.toList).filter fun n => inRange n || outOfRange n
      match number? with
      | some n => if inRange n then some (.int n) else none
      | none =>
        if isPaddedDigits s.toList then some (.str s)
        else match float? s with
          | some x => some (.float x)
          | none => some (.str s)

/-- The start of the tags of the notation itself. -/
def coreTag : String := "tag:yaml.org,2002:"

/-- The value of a scalar behind a tag that names a type; `none` if the characters do not write
a value of that type. -/
def typedValue? (kind s : String) : Option Value :=
  if kind == "bool" then (bool? s).map .bool
  else if kind == "int" then ((integer? s.toList).filter inRange).map .int
  else if kind == "float" then (float? s).map .float
  else if kind == "null" then (if isNullWord s then some .null else none)
  else some (.str s)

/-- Whether a tag is one that a value keeps. -/
def isLocalTag (tag : String) : Bool := Text.startsWith "!" tag

/-- The value of a written scalar, without a tag that the value would keep. -/
def value? (tag : Option String) (style : Style) (s : String) : Option Value :=
  let untyped := if style == .plain then plainValue? s else some (.str s)
  match tag with
  | none => untyped
  | some tag =>
    if isLocalTag tag then untyped
    else typedValue? ((Text.after? coreTag tag).getD "") s

/-! ## Readings -/

/-- The readings of a written scalar. -/
def ofText (tag : Option String) (style : Style) (s : String) : Scalar where
  text := some s
  integer :=
    if style == .plain || (style == .literal && tag == some (coreTag ++ "int")) then
      (integer? s.toList).filter fun n => -(Int.pow 2 63) ≤ n && n < Int.pow 2 63
    else none
  blank := style == .plain && s.isEmpty
  absent :=
    if style != .plain then some false
    else match tag with
      | none => some (s.isEmpty || isNullWord s)
      | some tag =>
        if tag != coreTag ++ "null" then some false
        else if isNullWord s then some true
        else none
  value := value? tag style s

/-- The readings of a place where nothing is written. -/
def empty : Scalar := ⟨none, none, true, some true, some .null⟩

/-- The readings of a value that is no collection. -/
def ofValue (v : Value) : Scalar where
  text := match v with
    | .str s => some s
    | _ => none
  integer := match v with
    | .int n => if -(Int.pow 2 63) ≤ n ∧ n < Int.pow 2 63 then some n else none
    | _ => none
  blank := v.isNull
  absent := some v.isNull
  value := some v

end Scalar

end Yaml

end DeployPlan
