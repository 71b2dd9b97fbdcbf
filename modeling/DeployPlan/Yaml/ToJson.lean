import DeployPlan.Json.Basic
import DeployPlan.Yaml.Value

/-!
# Values as JSON

## Main definitions

* `DeployPlan.Yaml.Value.toJson` — a value without its tags, in the shape that the platform
  takes.  What is neither finite nor a number becomes null, and so does nothing else but null.
* `Value.keyText?` — the key that an entry of a mapping gets: texts, truth values and numbers
  have one.
* `Value.droppedKeys` — the keys of the entries that have no place in the result.
-/

set_option autoImplicit false

namespace DeployPlan

namespace Yaml

namespace Value

/-- The key of a JSON object that a key of a mapping becomes, if it is a text, a truth value or
a number. -/
def keyText? : Value → Option String
  | .str s => some s
  | .bool b => some (toString b)
  | .int n => some (toString n)
  | .float x => some (floatText x)
  | _ => none

mutual

/-- The value as JSON: tags and entries without a key text are left out. -/
def toJson : Value → Json
  | .null => .null
  | .bool b => .bool b
  | .int n => .int n
  | .float x => if x.isFinite then .float x else .null
  | .str s => .str s
  | .seq items => .arr (itemsToJson items)
  | .map entries => .object (entriesToJson entries)
  | .tagged _ v => toJson v

/-- The items of a sequence as JSON. -/
def itemsToJson : List Value → List Json
  | [] => []
  | v :: vs => toJson v :: itemsToJson vs

/-- The entries of a mapping that have a key text. -/
def entriesToJson : List (Value × Value) → List (String × Json)
  | [] => []
  | (k, v) :: es => match keyText? k with
    | some k => (k, toJson v) :: entriesToJson es
    | none => entriesToJson es

end

mutual

/-- The keys without a text, at any depth, in the order of the document.  The values of such
entries are not looked into. -/
def droppedKeys : Value → List Value
  | .seq items => itemsDroppedKeys items
  | .map entries => entriesDroppedKeys entries
  | .tagged _ v => droppedKeys v
  | _ => []

/-- The keys without a text in the items of a sequence. -/
def itemsDroppedKeys : List Value → List Value
  | [] => []
  | v :: vs => droppedKeys v ++ itemsDroppedKeys vs

/-- The keys without a text in the entries of a mapping. -/
def entriesDroppedKeys : List (Value × Value) → List Value
  | [] => []
  | (k, v) :: es => match keyText? k with
    | some _ => droppedKeys v ++ entriesDroppedKeys es
    | none => k :: entriesDroppedKeys es

end

end Value

end Yaml

end DeployPlan
