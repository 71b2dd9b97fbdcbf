import DeployPlan.Compose.Report
import DeployPlan.Interpolation
import DeployPlan.Json.Reader
import DeployPlan.Plan.Basic
import DeployPlan.Yaml.ToJson

/-!
# Parameters and annotations

A parameter of an entity is a key and a JSON value.  The manifest gives the value freely, or
declares a type that it has to have.

## Main definitions

* `DeployPlan.ParamType` — the types that can be declared.
* `ParamType.zero` — the value of a type for which none is given.
* `ParamType.coerce` — a value as one of a type.  Texts, which is what variables hold, are read.
* `Yaml.Value.resolve` — a free value with the references in it replaced, as JSON.
* `ParamSpec.resolve`, `resolveParams`, `resolveAnnotations` — the entries of the platform.
-/

set_option autoImplicit false

namespace DeployPlan

open Yaml (Value)

/-! ## Types -/

/-- The types that a parameter can be declared with. -/
inductive ParamType where
  | string
  | integer
  | float
  | boolean
  | json
  deriving DecidableEq, Inhabited

namespace ParamType

/-- All types. -/
def all : List ParamType := [.string, .integer, .float, .boolean, .json]

/-- The word for a type. -/
def word : ParamType → String
  | .string => "string"
  | .integer => "integer"
  | .float => "float"
  | .boolean => "boolean"
  | .json => "json"

/-- The type with a given word. -/
def ofWord? (w : String) : Option ParamType := all.find? fun type => type.word == w

/-- The value of a type for which none is given. -/
def zero : ParamType → Json
  | .string => .str ""
  | .integer => .int 0
  | .float => .float .zero
  | .boolean => .bool false
  | .json => .obj []

/-- The integer of sixty-four bits that a text writes: a sign and decimal digits. -/
def integerOfText? (s : String) : Option Int :=
  let n? : Option Int := match s.toList with
    | '-' :: ds => (Text.natural? 10 ds).map fun n => -(n : Int)
    | '+' :: ds => (Text.natural? 10 ds).map Int.ofNat
    | ds => (Text.natural? 10 ds).map Int.ofNat
  n?.filter fun n => -(Int.pow 2 63) ≤ n && n < Int.pow 2 63

/-- The finite number that a text writes. -/
def floatOfText? (s : String) : Option Binary64 :=
  (Decimal.parseBinary64? s).filter Binary64.isFinite

/-- The truth value that a text writes. -/
def boolOfText? (s : String) : Option Bool :=
  if s = "true" then some true else if s = "false" then some false else none

/-- The value of a type that a text writes.  Blanks around it do not count. -/
def ofText (type : ParamType) (s : String) : Except ParameterFault Json :=
  let read? : Option Json := match type with
    | .string => some (.str s)
    | .integer => (integerOfText? (Text.trim s)).map .int
    | .float => (floatOfText? (Text.trim s)).map .float
    | .boolean => (boolOfText? (Text.trim s)).map .bool
    | .json => Json.parse? s
  match read?, type with
  | some v, _ => .ok v
  | none, .json => .error .invalidJson
  | none, _ => .error (.unreadable type.word s)

/-- A value as one of a type.  Texts are read; other values are of the type or they are not. -/
def coerce (type : ParamType) (v : Json) : Except ParameterFault Json :=
  match type, v with
  | type, .str s => type.ofText s
  | .boolean, .bool b => .ok (.bool b)
  | .json, .arr items => .ok (.arr items)
  | .json, .obj entries => .ok (.obj entries)
  | .integer, .int n => .ok (.int n)
  | .float, .int n => .ok (.int n)
  | .float, .float x => .ok (.float x)
  | type, v => .error (.wrongKind type.word v.kindName)

end ParamType

/-! ## Values -/

namespace Yaml

namespace Value

/-- The value with the references in its texts replaced, as JSON. -/
def resolved (vars : Variables) (v : Value) : Json := (v.interpolate vars).toJson

/-- The messages about a value that is resolved: references to variables that stand for
nothing, and entries of mappings that are left out. -/
def resolveEvents (vars : Variables) (v : Value) : List Event :=
  (v.unset vars).map Event.unsetVariable ++
    (v.interpolate vars).droppedKeys.map Event.droppedKey

/-- The value as JSON, with the messages about it; null counts as no value. -/
def resolve (vars : Variables) (v : Value) : Report (Option Json) :=
  ⟨v.resolveEvents vars, .ok (v.resolved vars).nonNull?⟩

end Value

end Yaml

namespace Interpolation

/-- A text with its references replaced, with the messages about it. -/
def resolve (vars : Variables) (s : String) : Report String :=
  ⟨(unset vars s).map Event.unsetVariable, .ok (expand vars s)⟩

end Interpolation

/-! ## Parameters -/

namespace ParamDeclaration

/-- The declared type, unless the name of the type is blank. -/
def paramType? (d : ParamDeclaration) : Except ParameterFault (Option ParamType) :=
  match (d.type.map Text.trim).filter fun name => !name.isEmpty with
  | none => .ok none
  | some name => match ParamType.ofWord? (Text.toLower name) with
    | some type => .ok (some type)
    | none => .error (.unsupportedType (Text.toLower name))

/-- What is given: the value, or the default where there is no value or only null. -/
def given? (d : ParamDeclaration) : Option Value :=
  [d.value, d.fallback].findSome? fun v => v.filter fun v => !v.untagged.isNull

/-- What a parameter of a type becomes. -/
def typed (type : Option ParamType) (raw : Option Json) : Except ParameterFault (Option Json) :=
  match type, raw with
  | none, raw => .ok raw
  | some type, none => .ok (some type.zero)
  | some type, some v => (type.coerce v).map some

/-- The value of a declared parameter, if it has one. -/
def resolve (d : ParamDeclaration) (vars : Variables) (name path : String) :
    Report (Option Json) := do
  let orFail {α : Type} (r : Except ParameterFault α) : Report α :=
    .ofExcept (r.mapError (.parameter name path))
  let type ← orFail d.paramType?
  let raw ← match d.given? with
    | some v => v.resolve vars
    | none => pure none
  orFail (typed type raw)

end ParamDeclaration

/-- The value of a parameter, if it has one. -/
def ParamSpec.resolve (vars : Variables) (path name : String) : ParamSpec → Report (Option Json)
  | .literal v => v.resolve vars
  | .declared d => d.resolve vars name path

/-- The parameters of an entity, in the order of their names.  Those without a value are left
out; the first that cannot be resolved ends the search. -/
def resolveParams (vars : Variables) (path : String) (inputs : KeyMap ParamSpec) :
    Report (List KeyValue) := do
  let resolved ← inputs.entries.mapM fun (name, spec) => do
    return (← spec.resolve vars path name).map (KeyValue.mk name)
  return resolved.filterMap id

/-- The annotations of an entity, in the order of their names.  Those without a value are left
out. -/
def resolveAnnotations (vars : Variables) (annotations : KeyMap Value) :
    Report (List KeyValue) :=
  ⟨annotations.entries.flatMap fun (_, v) => v.resolveEvents vars,
    .ok (annotations.entries.filterMap fun (name, v) =>
      (v.resolved vars).nonNull?.map (KeyValue.mk name))⟩

end DeployPlan
