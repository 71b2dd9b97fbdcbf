import DeployPlan.Manifest.Basic

/-!
# Manifests as values

The canonical form of a document, in which two texts that say the same agree, is the value that
it is written as.

## Main definitions

* `DeployPlan.Manifest.encode` — the value of a document, fields in their fixed order.  The path
  of the file has no part in it.
-/

set_option autoImplicit false

namespace DeployPlan

open Yaml (Value)

/-! ## Fields -/

/-- An entry of a record. -/
def encodeField (name : String) (v : Value) : Value × Value := (.str name, v)

/-- An entry that is left out when there is nothing to write. -/
def encodeOptional {α : Type} (name : String) (encode : α → Value) :
    Option α → List (Value × Value)
  | some v => [encodeField name (encode v)]
  | none => []

/-- A map, in the order of its keys. -/
def encodeMap {α : Type} (encode : α → Value) (m : KeyMap α) : Value :=
  .map (m.entries.map fun e => (.str e.1, encode e.2))

/-- A map that is left out when it is empty. -/
def encodeNonEmpty {α : Type} (name : String) (encode : α → Value) (m : KeyMap α) :
    List (Value × Value) :=
  if m.isEmpty then [] else [encodeField name (encodeMap encode m)]

/-- An integer that may be missing. -/
def encodeLimit (n : Option Int) : Value :=
  match n with
  | some n => .int n
  | none => .null

/-! ## Records -/

/-- The value of a declaration. -/
def ParamDeclaration.encode (d : ParamDeclaration) : Value :=
  .map (encodeOptional "type" .str d.type ++ encodeOptional "value" id d.value ++
    encodeOptional "default" id d.fallback ++ encodeOptional "description" .str d.description ++
    [encodeField "required" (.bool d.required)])

/-- The value of a parameter. -/
def ParamSpec.encode : ParamSpec → Value
  | .declared d => d.encode
  | .literal v => v

/-- The value of limits. -/
def LimitsSpec.encode (l : LimitsSpec) : Value :=
  .map [encodeField "timeout" (encodeLimit l.timeout),
    encodeField "memorySize" (encodeLimit l.memorySize),
    encodeField "logSize" (encodeLimit l.logSize),
    encodeField "concurrentActivations" (encodeLimit l.concurrentActivations),
    encodeField "userInvocationRate" (encodeLimit l.userInvocationRate),
    encodeField "codeSize" (encodeLimit l.codeSize),
    encodeField "parameterSize" (encodeLimit l.parameterSize)]

/-- The value of an action. -/
def ActionSpec.encode (a : ActionSpec) : Value :=
  .map [encodeField "function" (.str a.function), encodeField "location" (.str a.location),
    encodeField "runtime" (.str a.runtime), encodeField "main" (.str a.main),
    encodeField "namespace" (.str a.namespace), encodeField "version" (.str a.version),
    encodeField "inputs" (encodeMap ParamSpec.encode a.inputs),
    encodeField "outputs" (encodeMap ParamSpec.encode a.outputs),
    encodeField "annotations" (encodeMap id a.annotations),
    encodeField "web-export" (.str a.webExport),
    encodeField "limits" ((a.limits.map LimitsSpec.encode).getD .null)]

/-- The value of a sequence. -/
def SequenceSpec.encode (s : SequenceSpec) : Value :=
  .map [encodeField "actions" (.str s.actions),
    encodeField "annotations" (encodeMap id s.annotations)]

/-- The value of a trigger. -/
def TriggerSpec.encode (t : TriggerSpec) : Value :=
  .map [encodeField "namespace" (.str t.namespace), encodeField "feed" (.str t.feed),
    encodeField "source" (.str t.source),
    encodeField "inputs" (encodeMap ParamSpec.encode t.inputs),
    encodeField "annotations" (encodeMap id t.annotations)]

/-- The value of a rule. -/
def RuleSpec.encode (r : RuleSpec) : Value :=
  .map [encodeField "namespace" (.str r.namespace), encodeField "trigger" (.str r.trigger),
    encodeField "action" (.str r.action)]

/-- The value of a dependency. -/
def DependencySpec.encode (d : DependencySpec) : Value :=
  .map [encodeField "location" (.str d.location), encodeField "version" (.str d.version),
    encodeField "inputs" (encodeMap ParamSpec.encode d.inputs),
    encodeField "annotations" (encodeMap id d.annotations)]

/-- The value of the routes of an API. -/
def ApiSpec.encode (a : ApiSpec) : Value := encodeMap (encodeMap (encodeMap .str)) a

/-- The value of a package. -/
def PackageSpec.encode (p : PackageSpec) : Value :=
  .map [encodeField "name" (.str p.name), encodeField "version" (.str p.version),
    encodeField "license" (.str p.license), encodeField "namespace" (.str p.namespace),
    encodeField "dependencies" (encodeMap DependencySpec.encode p.dependencies),
    encodeField "actions" (encodeMap ActionSpec.encode p.actions),
    encodeField "sequences" (encodeMap SequenceSpec.encode p.sequences),
    encodeField "triggers" (encodeMap TriggerSpec.encode p.triggers),
    encodeField "rules" (encodeMap RuleSpec.encode p.rules),
    encodeField "apis" (encodeMap ApiSpec.encode p.apis),
    encodeField "inputs" (encodeMap ParamSpec.encode p.inputs),
    encodeField "annotations" (encodeMap id p.annotations)]

/-- The value of a project. -/
def ProjectSpec.encode (p : ProjectSpec) : Value :=
  .map ([encodeField "name" (.str p.name), encodeField "namespace" (.str p.namespace)] ++
    encodeOptional "package" PackageSpec.encode p.package ++
    encodeNonEmpty "packages" PackageSpec.encode p.packages)

/-- The value of a document. -/
def Manifest.encode (m : Manifest) : Value :=
  .map (encodeOptional "package" PackageSpec.encode m.package ++
    encodeNonEmpty "packages" PackageSpec.encode m.packages ++
    encodeOptional "project" ProjectSpec.encode m.project)

end DeployPlan
