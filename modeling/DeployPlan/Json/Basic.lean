import DeployPlan.Binary64.Basic
import DeployPlan.KeyMap

/-!
# JSON values

Parameters and annotations reach the platform as JSON values.

## Main definitions

* `DeployPlan.Json` — the values.  Integers are exact; other numbers are doubles.  The entries
  of an object are in key order, each key once.
* `Json.object` — the object of a list of entries, of two with one key the later.
* `Json.kindName` — the word that messages use for a value.
-/

set_option autoImplicit false

namespace DeployPlan

/-- A JSON value. -/
inductive Json where
  | null
  | bool (b : Bool)
  | int (n : Int)
  | float (x : Binary64)
  | str (s : String)
  | arr (items : List Json)
  | obj (entries : List (String × Json))
  deriving Inhabited

namespace Json

/-- The object of a list of entries: of two with one key, the later stays. -/
def object (entries : List (String × Json)) : Json := .obj (KeyMap.ofList entries).entries

/-- Whether the value is null. -/
def isNull : Json → Bool
  | .null => true
  | _ => false

/-- The value, unless it is null. -/
def nonNull? (v : Json) : Option Json := if v.isNull then none else some v

/-- The word that messages use for a value. -/
def kindName : Json → String
  | .null => "null"
  | .bool _ => "boolean"
  | .int _ => "integer"
  | .float _ => "float"
  | .str _ => "string"
  | .arr _ => "sequence"
  | .obj _ => "mapping"

/-- The member of an object under a key. -/
def get? (k : String) : Json → Option Json
  | .obj entries => Entries.find? k entries
  | _ => none

/-- The text, if the value is one. -/
def str? : Json → Option String
  | .str s => some s
  | _ => none

/-- The truth value, if the value is one. -/
def bool? : Json → Option Bool
  | .bool b => some b
  | _ => none

/-- The integer, if the value is one. -/
def int? : Json → Option Int
  | .int n => some n
  | _ => none

/-- The items, if the value is an array. -/
def arr? : Json → Option (List Json)
  | .arr items => some items
  | _ => none

/-- The entries, if the value is an object. -/
def obj? : Json → Option (List (String × Json))
  | .obj entries => some entries
  | _ => none

end Json

end DeployPlan
