import DeployPlan.Binary64.Decimal
import DeployPlan.Text.Quoted

/-!
# Values of a document

What is free in a manifest (parameters, defaults, annotations) is kept as a value.

## Main definitions

* `DeployPlan.Yaml.Value` — the values.  A mapping lists its entries in the order in which they
  were written.
* `Value.same` — equality of values: the order of a mapping's entries does not count.
* `Value.Distinct` — no mapping has two entries with the same key.
* `Value.untagged`, `Value.text?`, `Value.isNull` — views of a value.
* `Value.numberText`, `Value.shown` — the text of a number, and the text that log messages
  show for a value.
-/

set_option autoImplicit false

namespace DeployPlan

namespace Yaml

/-- A value. -/
inductive Value where
  | null
  | bool (b : Bool)
  | int (n : Int)
  | float (x : Binary64)
  | str (s : String)
  | seq (items : List Value)
  | map (entries : List (Value × Value))
  | tagged (tag : String) (v : Value)
  deriving Inhabited

namespace Value

/-! ## Views -/

/-- Whether the value is null. -/
def isNull : Value → Bool
  | .null => true
  | _ => false

/-- The value without the tags around it. -/
def untagged : Value → Value
  | .tagged _ v => v.untagged
  | v => v

/-- The text, if the value is one, whatever its tags. -/
def text? (v : Value) : Option String :=
  match v.untagged with
  | .str s => some s
  | _ => none

/-! ## Equality of keys -/

mutual

/-- Equality of values, up to the order of the entries of mappings.  The two zeros are equal; an
integer and a float never are. -/
def same : Value → Value → Bool
  | .null, .null => true
  | .bool a, .bool b => a == b
  | .int a, .int b => a == b
  | .float a, .float b => a.same b
  | .str a, .str b => a == b
  | .seq a, .seq b => sameItems a b
  | .map a, .map b => a.length == b.length && sameEntries a b
  | .tagged s a, .tagged t b => s == t && same a b
  | _, _ => false

/-- Item by item equality. -/
def sameItems : List Value → List Value → Bool
  | [], [] => true
  | a :: as, b :: bs => same a b && sameItems as bs
  | _, _ => false

/-- Whether each entry of the first list is found in the second. -/
def sameEntries : List (Value × Value) → List (Value × Value) → Bool
  | [], _ => true
  | (k, v) :: es, bs => bs.any (fun e => same k e.1 && same v e.2) && sameEntries es bs

end

mutual

/-- No mapping at any depth has two entries with the same key. -/
def Distinct : Value → Prop
  | .seq items => DistinctItems items
  | .map entries =>
    (entries.Pairwise fun a b => same a.1 b.1 = false) ∧ DistinctEntries entries
  | .tagged _ v => Distinct v
  | _ => True

/-- The condition on the items of a sequence. -/
def DistinctItems : List Value → Prop
  | [] => True
  | v :: vs => Distinct v ∧ DistinctItems vs

/-- The condition on the keys and values of a mapping. -/
def DistinctEntries : List (Value × Value) → Prop
  | [] => True
  | (k, v) :: es => Distinct k ∧ Distinct v ∧ DistinctEntries es

end

/-! ## Texts -/

/-- The text of a float. -/
def floatText (x : Binary64) : String :=
  if x.isNaN then ".nan"
  else if !x.isFinite then (if x.isNegative then "-.inf" else ".inf")
  else x.scientific

/-- Texts between an opening and a closing mark, with commas between them. -/
def listed (opening closing : String) (items : List String) : String :=
  opening ++ Text.join ", " items ++ closing

/-- A key in the text of a mapping: texts, truth values and numbers stand bare. -/
def bareKey? : Value → Option String
  | .bool b => some (toString b)
  | .int n => some (toString n)
  | .float x => some (floatText x)
  | .str s => some (Text.quoted s)
  | _ => none

mutual

/-- The text that log messages show for a value. -/
def shown : Value → String
  | .null => "Null"
  | .bool b => "Bool(" ++ toString b ++ ")"
  | .int n => "Number(" ++ toString n ++ ")"
  | .float x => "Number(" ++ floatText x ++ ")"
  | .str s => "String(" ++ Text.quoted s ++ ")"
  | .seq items => "Sequence " ++ listed "[" "]" (shownItems items)
  | .map entries => "Mapping " ++ listed "\x7b" "\x7d" (shownEntries entries)
  | .tagged tag v =>
    "TaggedValue \x7b tag: !" ++ tag ++ ", value: " ++ shown v ++ " \x7d"

/-- The texts of the items of a sequence. -/
def shownItems : List Value → List String
  | [] => []
  | v :: vs => shown v :: shownItems vs

/-- The texts of the entries of a mapping. -/
def shownEntries : List (Value × Value) → List String
  | [] => []
  | (k, v) :: es => ((bareKey? k).getD (shown k) ++ ": " ++ shown v) :: shownEntries es

end

end Value

end Yaml

end DeployPlan
