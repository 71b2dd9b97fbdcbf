import DeployPlan.KeyMap
import DeployPlan.Yaml.Value

/-!
# Manifests

A manifest declares packages of actions, sequences, triggers, rules, gateway routes and
dependencies.  A deployment descriptor has the same shape and supplies values for a manifest.

## Main definitions

* `DeployPlan.Manifest` — a document, with the path of the file it was read from.
* `DeployPlan.PackageSpec`, `ActionSpec`, `SequenceSpec`, `TriggerSpec`, `RuleSpec`, `ApiSpec`,
  `DependencySpec` — what it declares.
* `DeployPlan.ParamSpec` — an input or output: a value, or a declaration with a type.
-/

set_option autoImplicit false

namespace DeployPlan

open Yaml (Value)

/-! ## Parameters -/

/-- A parameter that is declared with a type or a default. -/
structure ParamDeclaration where
  /-- The name of its type. -/
  type : Option String := none
  /-- Its value. -/
  value : Option Value := none
  /-- Its value where none is given. -/
  fallback : Option Value := none
  /-- What it is for. -/
  description : Option String := none
  /-- Whether a value has to be given. -/
  required : Bool := false
  deriving Inhabited

/-- An input or output. -/
inductive ParamSpec where
  | declared (d : ParamDeclaration)
  | literal (v : Value)
  deriving Inhabited

namespace ParamSpec

/-- The value that the parameter carries, whatever its type. -/
def rawValue? : ParamSpec → Option Value
  | .declared d => d.value.or d.fallback
  | .literal .null => none
  | .literal v => some v

end ParamSpec

/-! ## Entities -/

/-- The limits of an action. -/
structure LimitsSpec where
  timeout : Option Int := none
  memorySize : Option Int := none
  logSize : Option Int := none
  concurrentActivations : Option Int := none
  userInvocationRate : Option Int := none
  codeSize : Option Int := none
  parameterSize : Option Int := none
  deriving DecidableEq, Inhabited

/-- An action. -/
structure ActionSpec where
  /-- The path of its source. -/
  function : String := ""
  /-- The former name of `function`. -/
  location : String := ""
  runtime : String := ""
  main : String := ""
  /-- Its namespace. -/
  «namespace» : String := ""
  version : String := ""
  inputs : KeyMap ParamSpec := .empty
  outputs : KeyMap ParamSpec := .empty
  annotations : KeyMap Value := .empty
  webExport : String := ""
  limits : Option LimitsSpec := none
  deriving Inhabited

namespace ActionSpec

/-- The path of the source, under whichever name it was given. -/
def source (spec : ActionSpec) : String :=
  if spec.function.isEmpty then spec.location else spec.function

end ActionSpec

/-- A sequence of actions. -/
structure SequenceSpec where
  /-- References to actions, between commas. -/
  actions : String := ""
  annotations : KeyMap Value := .empty
  deriving Inhabited

/-- A trigger. -/
structure TriggerSpec where
  /-- Its namespace. -/
  «namespace» : String := ""
  feed : String := ""
  /-- The former name of `feed`. -/
  source : String := ""
  inputs : KeyMap ParamSpec := .empty
  annotations : KeyMap Value := .empty
  deriving Inhabited

namespace TriggerSpec

/-- The feed, under whichever name it was given. -/
def feedSource (spec : TriggerSpec) : String :=
  if spec.feed.isEmpty then spec.source else spec.feed

end TriggerSpec

/-- A rule, which binds an action to a trigger. -/
structure RuleSpec where
  /-- Its namespace. -/
  «namespace» : String := ""
  trigger : String
  action : String
  deriving DecidableEq, Inhabited

/-- A package that is taken from elsewhere. -/
structure DependencySpec where
  location : String := ""
  version : String := ""
  inputs : KeyMap ParamSpec := .empty
  annotations : KeyMap Value := .empty
  deriving Inhabited

/-- The routes of an API: base path, relative path, action and method. -/
abbrev ApiSpec := KeyMap (KeyMap (KeyMap String))

/-- A package. -/
structure PackageSpec where
  /-- Its name, where no map names it. -/
  name : String := ""
  version : String := ""
  license : String := ""
  /-- Its namespace. -/
  «namespace» : String := ""
  dependencies : KeyMap DependencySpec := .empty
  actions : KeyMap ActionSpec := .empty
  sequences : KeyMap SequenceSpec := .empty
  triggers : KeyMap TriggerSpec := .empty
  rules : KeyMap RuleSpec := .empty
  apis : KeyMap ApiSpec := .empty
  inputs : KeyMap ParamSpec := .empty
  annotations : KeyMap Value := .empty
  deriving Inhabited

/-! ## Documents -/

/-- A project, which may hold the packages. -/
structure ProjectSpec where
  name : String := ""
  /-- Its namespace. -/
  «namespace» : String := ""
  /-- The former way to give a single package. -/
  package : Option PackageSpec := none
  packages : KeyMap PackageSpec := .empty
  deriving Inhabited

/-- A manifest or deployment descriptor. -/
structure Manifest where
  /-- The former way to give a single package. -/
  package : Option PackageSpec := none
  packages : KeyMap PackageSpec := .empty
  project : Option ProjectSpec := none
  /-- The path of the file it was read from; empty for other documents. -/
  path : String := ""
  deriving Inhabited

end DeployPlan
