import DeployPlan.Json.Basic
import DeployPlan.Manifest.Route

/-!
# Deployment plans

A plan is what a platform is asked to create: the entities that a manifest declares, with every
name, value and piece of code in its final form.

## Main definitions

* `DeployPlan.KeyValue`, `KeyValues` — parameters and annotations, and the operations on lists of
  them.
* `DeployPlan.Action`, `Package`, `Trigger`, `Rule`, `DependencyRecord` — the entities.
* `DeployPlan.Plan` — everything that one manifest declares.
-/

set_option autoImplicit false

namespace DeployPlan

/-! ## Parameters and annotations -/

/-- A parameter or annotation. -/
structure KeyValue where
  key : String
  value : Json
  deriving Inhabited

namespace KeyValues

/-- The first entry under a key. -/
def find? (key : String) (list : List KeyValue) : Option KeyValue :=
  list.find? fun kv => kv.key == key

/-- Whether a key has an entry. -/
def has (key : String) (list : List KeyValue) : Bool := list.any fun kv => kv.key == key

/-- The list without the entries under a key. -/
def remove (key : String) (list : List KeyValue) : List KeyValue :=
  list.filter fun kv => kv.key != key

/-- Replaces the value of the first entry under a key. -/
def replaceFirst (key : String) (value : Json) : List KeyValue → List KeyValue
  | [] => []
  | kv :: list =>
    if kv.key = key then { kv with value := value } :: list
    else kv :: replaceFirst key value list

/-- The keys, in order. -/
def keys (list : List KeyValue) : List String := list.map (·.key)

end KeyValues

/-! ## Entities -/

/-- What an action runs. -/
structure Exec where
  /-- The kind of runtime; empty if there is none. -/
  kind : String
  /-- The code, as text or in Base64. -/
  code : Option String := none
  /-- The entry point. -/
  main : Option String := none
  /-- The actions of a sequence, in order. -/
  components : List String := []
  /-- Whether the code is in Base64. -/
  binary : Bool := false
  deriving DecidableEq, Inhabited

/-- The limits of an action. -/
structure Limits where
  timeout : Option Int := none
  memory : Option Int := none
  logs : Option Int := none
  deriving DecidableEq, Inhabited

namespace Limits

/-- Whether no limit is set. -/
def isEmpty (l : Limits) : Bool := l.timeout.isNone && l.memory.isNone && l.logs.isNone

end Limits

/-- An action. -/
structure Action where
  name : String
  /-- Its namespace. -/
  «namespace» : String
  publish : Bool
  exec : Option Exec
  parameters : List KeyValue
  annotations : List KeyValue
  limits : Option Limits
  deriving Inhabited

/-- An action or sequence, and where it comes from. -/
structure ActionRecord where
  action : Action
  packageName : String
  /-- The path of the source; the name of a sequence; empty for an action without a source. -/
  filePath : String
  deriving Inhabited

/-- A package. -/
structure Package where
  name : String
  /-- Its namespace. -/
  «namespace» : String
  publish : Bool
  parameters : List KeyValue
  annotations : List KeyValue
  deriving Inhabited

/-- A trigger. -/
structure Trigger where
  name : String
  /-- Its namespace. -/
  «namespace» : String
  publish : Bool
  parameters : List KeyValue
  annotations : List KeyValue
  deriving Inhabited

/-- A rule. -/
structure Rule where
  name : String
  /-- Its namespace. -/
  «namespace» : String
  publish : Bool
  trigger : String
  /-- The action, behind the name of its package. -/
  action : String
  deriving DecidableEq, Inhabited

/-- Where the package of a dependency comes from. -/
inductive DependencyKind where
  /-- The platform provides it. -/
  | binding
  /-- A repository holds it. -/
  | remote
  deriving DecidableEq, Inhabited

namespace DependencyKind

/-- The word for a kind. -/
def word : DependencyKind → String
  | .binding => "binding"
  | .remote => "remote"

end DependencyKind

/-- A dependency. -/
structure DependencyRecord where
  /-- The directory that the package is checked out to. -/
  projectPath : String
  packageName : String
  location : String
  version : String
  kind : DependencyKind
  baseRepo : Option String
  subFolder : Option String
  parameters : List KeyValue
  annotations : List KeyValue
  deriving Inhabited

/-! ## Plans -/

/-- A package with its actions and sequences. -/
structure PackagePlan where
  package : Package
  actions : KeyMap ActionRecord := .empty
  sequences : KeyMap ActionRecord := .empty
  deriving Inhabited

/-- Everything that one manifest declares. -/
structure Plan where
  packages : KeyMap PackagePlan := .empty
  triggers : KeyMap Trigger := .empty
  rules : KeyMap Rule := .empty
  routes : List Route := []
  dependencies : KeyMap DependencyRecord := .empty
  deriving Inhabited

namespace Plan

/-- The number of actions. -/
def actionCount (p : Plan) : Nat :=
  (p.packages.values.map fun q => q.actions.size).foldr (· + ·) 0

/-- The number of sequences. -/
def sequenceCount (p : Plan) : Nat :=
  (p.packages.values.map fun q => q.sequences.size).foldr (· + ·) 0

end Plan

end DeployPlan
