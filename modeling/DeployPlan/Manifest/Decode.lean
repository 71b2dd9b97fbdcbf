import DeployPlan.Manifest.Basic
import DeployPlan.Yaml.Decode

/-!
# Reading manifests

## Main definitions

* `DeployPlan.Manifest.decoder` — the reader of documents.
* `DeployPlan.PackageSpec.decoder` and so on — the readers of their parts.
* `DeployPlan.ParamSpec.isDeclaration` — when a mapping declares a parameter and when it is
  itself the value.
-/

set_option autoImplicit false

namespace DeployPlan

open Yaml (Value Tree Decoder DecodeError)

/-! ## Parameters -/

namespace ParamDeclaration

/-- The fields of a declaration. -/
def fields : List (Yaml.Field ParamDeclaration) :=
  [.of "type" (.optional .text) fun v d => { d with type := v },
    .of "value" (.optional .value) fun v d => { d with value := v },
    .of "default" (.optional .value) fun v d => { d with fallback := v },
    .of "description" (.optional .text) fun v d => { d with description := v },
    .of "required" .truth fun v d => { d with required := v }]

/-- The reader of declarations. -/
def decoder : Decoder ParamDeclaration := .record "ParamDeclaration" fields {} .ok

end ParamDeclaration

namespace ParamSpec

/-- The keys that a declaration may have. -/
def declarationKeys : List String := ["type", "value", "default", "description", "required"]

/-- The keys one of which a declaration has to have. -/
def definingKeys : List String := ["type", "value", "default"]

/-- Whether a value is a declaration: a mapping with no other keys than those of a declaration,
and with one that gives a type or a value. -/
def isDeclaration : Value → Bool
  | .map entries =>
    let keys := entries.map fun e => e.1.text?
    keys.all (fun k => k.any declarationKeys.contains) &&
      keys.any (fun k => k.any definingKeys.contains)
  | _ => false

/-- Reads a parameter from a value. -/
def ofValue (v : Value) : Except DecodeError ParamSpec :=
  if isDeclaration v then
    match ParamDeclaration.decoder (Tree.ofValue v) with
    | .ok d => .ok (.declared d)
    | .error e => .error e.detach
  else .ok (.literal v)

/-- The reader of parameters. -/
def decoder : Decoder ParamSpec := fun t => (Decoder.value t).bind ofValue

end ParamSpec

/-! ## Fields that several entities have -/

section SharedFields

variable {σ : Type}

/-- The field of inputs, which may also be called parameters. -/
def inputsField (put : KeyMap ParamSpec → σ → σ) : Yaml.Field σ :=
  .of "inputs" (.mapOf ParamSpec.decoder) put ["parameters"]

/-- The field of annotations. -/
def annotationsField (put : KeyMap Value → σ → σ) : Yaml.Field σ :=
  .of "annotations" (.mapOf .value) put

end SharedFields

/-! ## Entities -/

namespace LimitsSpec

/-- The fields of limits. -/
def fields : List (Yaml.Field LimitsSpec) :=
  [.of "timeout" (.optional .integer) fun v l => { l with timeout := v },
    .of "memorySize" (.optional .integer) fun v l => { l with memorySize := v },
    .of "logSize" (.optional .integer) fun v l => { l with logSize := v },
    .of "concurrentActivations" (.optional .integer)
      fun v l => { l with concurrentActivations := v },
    .of "userInvocationRate" (.optional .integer) fun v l => { l with userInvocationRate := v },
    .of "codeSize" (.optional .integer) fun v l => { l with codeSize := v },
    .of "parameterSize" (.optional .integer) fun v l => { l with parameterSize := v }]

/-- The reader of limits. -/
def decoder : Decoder LimitsSpec := .record "LimitsSpec" fields {} .ok

end LimitsSpec

namespace ActionSpec

/-- The fields of an action. -/
def fields : List (Yaml.Field ActionSpec) :=
  [.of "function" .text fun v a => { a with function := v },
    .of "location" .text fun v a => { a with location := v },
    .of "runtime" .scalarText fun v a => { a with runtime := v },
    .of "main" .text fun v a => { a with main := v },
    .of "namespace" .text fun v a => { a with «namespace» := v },
    .of "version" .scalarText fun v a => { a with version := v },
    inputsField fun v a => { a with inputs := v },
    .of "outputs" (.mapOf ParamSpec.decoder) fun v a => { a with outputs := v },
    annotationsField fun v a => { a with annotations := v },
    .of "web-export" .scalarText fun v a => { a with webExport := v },
    .of "limits" (.optional LimitsSpec.decoder) fun v a => { a with limits := v }]

/-- The reader of actions. -/
def decoder : Decoder ActionSpec := .record "ActionSpec" fields {} .ok

end ActionSpec

namespace SequenceSpec

/-- The fields of a sequence. -/
def fields : List (Yaml.Field SequenceSpec) :=
  [.of "actions" .text fun v s => { s with actions := v },
    annotationsField fun v s => { s with annotations := v }]

/-- The reader of sequences. -/
def decoder : Decoder SequenceSpec := .record "SequenceSpec" fields {} .ok

end SequenceSpec

namespace TriggerSpec

/-- The fields of a trigger. -/
def fields : List (Yaml.Field TriggerSpec) :=
  [.of "namespace" .text fun v t => { t with «namespace» := v },
    .of "feed" .text fun v t => { t with feed := v },
    .of "source" .text fun v t => { t with source := v },
    inputsField fun v t => { t with inputs := v },
    annotationsField fun v t => { t with annotations := v }]

/-- The reader of triggers. -/
def decoder : Decoder TriggerSpec := .record "TriggerSpec" fields {} .ok

end TriggerSpec

namespace RuleSpec

/-- What was read of a rule. -/
structure Draft where
  /-- Its namespace. -/
  «namespace» : String := ""
  trigger : Option String := none
  action : Option String := none

/-- The fields of a rule. -/
def fields : List (Yaml.Field Draft) :=
  [.of "namespace" .text fun v r => { r with «namespace» := v },
    .of "trigger" .text fun v r => { r with trigger := some v },
    .of "action" .text fun v r => { r with action := some v }]

/-- The rule, if both its sides were given. -/
def Draft.finish (r : Draft) : Except DecodeError RuleSpec :=
  match r.trigger, r.action with
  | none, _ => .error (.mismatch none (.missingField "trigger"))
  | _, none => .error (.mismatch none (.missingField "action"))
  | some trigger, some action => .ok ⟨r.namespace, trigger, action⟩

/-- The reader of rules. -/
def decoder : Decoder RuleSpec := .record "RuleSpec" fields {} Draft.finish

end RuleSpec

namespace DependencySpec

/-- The fields of a dependency. -/
def fields : List (Yaml.Field DependencySpec) :=
  [.of "location" .text fun v d => { d with location := v },
    .of "version" .scalarText fun v d => { d with version := v },
    inputsField fun v d => { d with inputs := v },
    annotationsField fun v d => { d with annotations := v }]

/-- The reader of dependencies. -/
def decoder : Decoder DependencySpec := .record "DependencySpec" fields {} .ok

end DependencySpec

/-- The reader of the routes of an API. -/
def ApiSpec.decoder : Decoder ApiSpec := .mapOf (.mapOf (.mapOf .text))

namespace PackageSpec

/-- The fields of a package. -/
def fields : List (Yaml.Field PackageSpec) :=
  [.of "name" .text fun v p => { p with name := v },
    .of "version" .scalarText fun v p => { p with version := v },
    .of "license" .scalarText fun v p => { p with license := v },
    .of "namespace" .text fun v p => { p with «namespace» := v },
    .of "dependencies" (.mapOf DependencySpec.decoder) fun v p => { p with dependencies := v },
    .of "actions" (.mapOf ActionSpec.decoder) fun v p => { p with actions := v },
    .of "sequences" (.mapOf SequenceSpec.decoder) fun v p => { p with sequences := v },
    .of "triggers" (.mapOf TriggerSpec.decoder) fun v p => { p with triggers := v },
    .of "rules" (.mapOf RuleSpec.decoder) fun v p => { p with rules := v },
    .of "apis" (.mapOf ApiSpec.decoder) fun v p => { p with apis := v },
    inputsField fun v p => { p with inputs := v },
    annotationsField fun v p => { p with annotations := v }]

/-- The reader of packages. -/
def decoder : Decoder PackageSpec := .record "PackageSpec" fields {} .ok

end PackageSpec

/-! ## Documents -/

namespace ProjectSpec

/-- The fields of a project. -/
def fields : List (Yaml.Field ProjectSpec) :=
  [.of "name" .text fun v p => { p with name := v },
    .of "namespace" .text fun v p => { p with «namespace» := v },
    .of "package" (.optional PackageSpec.decoder) fun v p => { p with package := v },
    .of "packages" (.mapOf PackageSpec.decoder) fun v p => { p with packages := v }]

/-- The reader of projects. -/
def decoder : Decoder ProjectSpec := .record "ProjectSpec" fields {} .ok

end ProjectSpec

namespace Manifest

/-- The fields of a document. -/
def fields : List (Yaml.Field Manifest) :=
  [.of "package" (.optional PackageSpec.decoder) fun v m => { m with package := v },
    .of "packages" (.mapOf PackageSpec.decoder) fun v m => { m with packages := v },
    .of "project" (.optional ProjectSpec.decoder) fun v m => { m with project := v }]

/-- The reader of documents. -/
def decoder : Decoder Manifest := .record "ManifestDocument" fields {} .ok

/-- Reads a document. -/
def parse (text : String) : Except DecodeError Manifest := decoder.run text

end Manifest

end DeployPlan
