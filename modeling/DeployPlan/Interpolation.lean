import DeployPlan.KeyMap
import DeployPlan.Yaml.Value

/-!
# Variable references

Texts of a manifest may refer to variables, as `$NAME` or as `${NAME}`.

## Main definitions

* `DeployPlan.Variables` — what variables stand for: a map, and what is asked when the map has
  no entry.
* `DeployPlan.Interpolation.Segment`, `segments` — a text as characters and references.
* `Interpolation.expand` — the text with the references replaced; what is put in is not looked
  at again.
* `Interpolation.unset` — the references to variables that stand for nothing, in order.
* `Yaml.Value.interpolate`, `Yaml.Value.unset` — the same for all texts of a value but its keys.
-/

set_option autoImplicit false

namespace DeployPlan

/-- What variables stand for. -/
structure Variables where
  /-- The variables that were set for this run. -/
  own : KeyMap String := .empty
  /-- Where other variables are looked up. -/
  outer : String → Option String := fun _ => none

namespace Variables

/-- What a variable stands for. -/
def get? (vars : Variables) (name : String) : Option String :=
  match vars.own.get? name with
  | some text => some text
  | none => vars.outer name

/-- Sets a variable. -/
def set (vars : Variables) (name text : String) : Variables :=
  { vars with own := vars.own.insert name text }

end Variables

namespace Interpolation

/-! ## References -/

/-- A character that a name may start with. -/
def isNameStart (c : Char) : Bool := c.isAlpha || c == '_'

/-- A character that a name may hold. -/
def isNamePart (c : Char) : Bool := c.isAlphanum || c == '_'

/-- Whether characters form a name. -/
def isName : List Char → Bool
  | c :: cs => isNameStart c && cs.all isNamePart
  | [] => false

/-- The name of the reference whose dollar sign stands before `cs`, and the number of characters
of `cs` that belong to it. -/
def reference? (cs : List Char) : Option (String × Nat) :=
  match cs with
  | '{' :: body =>
    let name := body.takeWhile (· != '}')
    if name.length < body.length && isName name then
      some (String.ofList name, name.length + 2)
    else none
  | _ =>
    let name := cs.takeWhile isNamePart
    if isName name then some (String.ofList name, name.length) else none

/-- A piece of a text. -/
inductive Segment where
  | char (c : Char)
  | reference (name : String)
  deriving DecidableEq, Inhabited

/-- The pieces of a text, from left to right.  A dollar sign that starts no reference is a
character. -/
def segments (cs : List Char) : List Segment :=
  match cs with
  | [] => []
  | c :: rest =>
    if c = '$' then
      match reference? rest with
      | some (name, n) => .reference name :: segments (rest.drop n)
      | none => .char c :: segments rest
    else .char c :: segments rest
termination_by cs.length
decreasing_by
  all_goals
    simp only [List.length_drop, List.length_cons]
    omega

/-- The characters that a piece becomes. -/
def Segment.expand (vars : Variables) : Segment → List Char
  | .char c => [c]
  | .reference name => ((vars.get? name).getD "").toList

/-- The name in a reference to a variable that stands for nothing. -/
def Segment.unset? (vars : Variables) : Segment → Option String
  | .char _ => none
  | .reference name => if (vars.get? name).isNone then some name else none

/-- A text with its references replaced by what the variables stand for, and by nothing where
they stand for nothing. -/
def expand (vars : Variables) (s : String) : String :=
  String.ofList ((segments s.toList).flatMap (Segment.expand vars))

/-- The names of the references that were replaced by nothing, in order. -/
def unset (vars : Variables) (s : String) : List String :=
  (segments s.toList).filterMap (Segment.unset? vars)

end Interpolation

namespace Yaml

namespace Value

mutual

/-- A value with the references in its texts replaced.  Keys stay, and tags go. -/
def interpolate (vars : Variables) : Value → Value
  | .str s => .str (Interpolation.expand vars s)
  | .seq items => .seq (interpolateItems vars items)
  | .map entries => .map (interpolateEntries vars entries)
  | .tagged _ v => interpolate vars v
  | .null => .null
  | .bool b => .bool b
  | .int n => .int n
  | .float x => .float x

/-- The items of a sequence with their references replaced. -/
def interpolateItems (vars : Variables) : List Value → List Value
  | [] => []
  | v :: vs => interpolate vars v :: interpolateItems vars vs

/-- The entries of a mapping with the references in their values replaced. -/
def interpolateEntries (vars : Variables) : List (Value × Value) → List (Value × Value)
  | [] => []
  | (k, v) :: es => (k, interpolate vars v) :: interpolateEntries vars es

end

mutual

/-- The names of the references in the texts of a value that are replaced by nothing. -/
def unset (vars : Variables) : Value → List String
  | .str s => Interpolation.unset vars s
  | .seq items => unsetItems vars items
  | .map entries => unsetEntries vars entries
  | .tagged _ v => unset vars v
  | _ => []

/-- The names in the items of a sequence. -/
def unsetItems (vars : Variables) : List Value → List String
  | [] => []
  | v :: vs => unset vars v ++ unsetItems vars vs

/-- The names in the values of the entries of a mapping. -/
def unsetEntries (vars : Variables) : List (Value × Value) → List String
  | [] => []
  | (_, v) :: es => unset vars v ++ unsetEntries vars es

end

end Value

end Yaml

end DeployPlan
