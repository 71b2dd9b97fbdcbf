import DeployPlan.Plan.Basic

/-!
# Plans from JSON

## Main definitions

* `DeployPlan.Plan.ofJson?` — the plan that a JSON value describes.  Other members than those of
  a plan do not count, and lists, maps and optional parts may be missing.
-/

set_option autoImplicit false

namespace DeployPlan

/-! ## Fields -/

/-- A member that has to be there. -/
def requiredMember {α : Type} (ofJson? : Json → Option α) (name : String) (v : Json) :
    Option α :=
  (v.get? name).bind ofJson?

/-- A member that may be missing or null. -/
def optionalMember {α : Type} (ofJson? : Json → Option α) (name : String) (v : Json) :
    Option (Option α) :=
  match v.get? name with
  | none | some .null => some none
  | some w => (ofJson? w).map some

/-- A member that has a default. -/
def memberOr {α : Type} (ofJson? : Json → Option α) (default : α) (name : String) (v : Json) :
    Option α :=
  match v.get? name with
  | none => some default
  | some w => ofJson? w

/-- The items of an array. -/
def listOfJson? {α : Type} (ofJson? : Json → Option α) (v : Json) : Option (List α) :=
  v.arr?.bind fun items => items.mapM ofJson?

/-- The entries of an object. -/
def mapOfJson? {α : Type} (ofJson? : Json → Option α) (v : Json) : Option (KeyMap α) :=
  v.obj?.bind fun entries =>
    (entries.mapM fun e => (ofJson? e.2).map fun a => (e.1, a)).map KeyMap.ofList

/-- A signed integer of sixty-four bits. -/
def wordOfJson? (v : Json) : Option Int :=
  v.int?.filter fun n => -(Int.pow 2 63) ≤ n && n < Int.pow 2 63

/-! ## Entities -/

/-- The entry that a JSON value describes. -/
def KeyValue.ofJson? (v : Json) : Option KeyValue := do
  return ⟨← requiredMember Json.str? "key" v, ← v.get? "value"⟩

/-- The list of entries in a member. -/
def keyValuesMember (name : String) (v : Json) : Option (List KeyValue) :=
  memberOr (listOfJson? KeyValue.ofJson?) [] name v

/-- What an action runs. -/
def Exec.ofJson? (v : Json) : Option Exec := do
  let kind ← requiredMember Json.str? "kind" v
  let code ← optionalMember Json.str? "code" v
  let main ← optionalMember Json.str? "main" v
  let components ← memberOr (listOfJson? Json.str?) [] "components" v
  let binary ← memberOr Json.bool? false "binary" v
  return ⟨kind, code, main, components, binary⟩

/-- The limits that a JSON value describes. -/
def Limits.ofJson? (v : Json) : Option Limits := do
  let _ ← v.obj?
  let timeout ← optionalMember wordOfJson? "timeout" v
  let memory ← optionalMember wordOfJson? "memory" v
  let logs ← optionalMember wordOfJson? "logs" v
  return ⟨timeout, memory, logs⟩

/-- The action that a JSON value describes. -/
def Action.ofJson? (v : Json) : Option Action := do
  let name ← requiredMember Json.str? "name" v
  let ns ← requiredMember Json.str? "namespace" v
  let publish ← requiredMember Json.bool? "publish" v
  let exec ← optionalMember Exec.ofJson? "exec" v
  let parameters ← keyValuesMember "parameters" v
  let annotations ← keyValuesMember "annotations" v
  let limits ← optionalMember Limits.ofJson? "limits" v
  return ⟨name, ns, publish, exec, parameters, annotations, limits⟩

/-- The action and its origin that a JSON value describes. -/
def ActionRecord.ofJson? (v : Json) : Option ActionRecord := do
  let action ← requiredMember Action.ofJson? "action" v
  let packageName ← requiredMember Json.str? "package_name" v
  let filePath ← requiredMember Json.str? "file_path" v
  return ⟨action, packageName, filePath⟩

/-- The package that a JSON value describes. -/
def Package.ofJson? (v : Json) : Option Package := do
  let name ← requiredMember Json.str? "name" v
  let ns ← requiredMember Json.str? "namespace" v
  let publish ← requiredMember Json.bool? "publish" v
  let parameters ← keyValuesMember "parameters" v
  let annotations ← keyValuesMember "annotations" v
  return ⟨name, ns, publish, parameters, annotations⟩

/-- The trigger that a JSON value describes. -/
def Trigger.ofJson? (v : Json) : Option Trigger := do
  let name ← requiredMember Json.str? "name" v
  let ns ← requiredMember Json.str? "namespace" v
  let publish ← requiredMember Json.bool? "publish" v
  let parameters ← keyValuesMember "parameters" v
  let annotations ← keyValuesMember "annotations" v
  return ⟨name, ns, publish, parameters, annotations⟩

/-- The rule that a JSON value describes. -/
def Rule.ofJson? (v : Json) : Option Rule := do
  let name ← requiredMember Json.str? "name" v
  let ns ← requiredMember Json.str? "namespace" v
  let publish ← requiredMember Json.bool? "publish" v
  let trigger ← requiredMember Json.str? "trigger" v
  let action ← requiredMember Json.str? "action" v
  return ⟨name, ns, publish, trigger, action⟩

/-- The route that a JSON value describes. -/
def Route.ofJson? (v : Json) : Option Route := do
  let ns ← requiredMember Json.str? "namespace" v
  let apiName ← requiredMember Json.str? "apiName" v
  let basePath ← requiredMember Json.str? "gatewayBasePath" v
  let relativePath ← requiredMember Json.str? "gatewayRelPath" v
  let method ← requiredMember Json.str? "gatewayMethod" v
  let target ← v.get? "action"
  let action ← requiredMember Json.str? "name" target
  let actionNamespace ← requiredMember Json.str? "namespace" target
  let backendMethod ← requiredMember Json.str? "backendMethod" target
  return ⟨ns, apiName, basePath, relativePath, method, action, actionNamespace, backendMethod⟩

/-- The route that the JSON value of a request describes. -/
def Route.ofRequestJson? (v : Json) : Option Route := requiredMember Route.ofJson? "apiDoc" v

/-- The kind that a JSON value names. -/
def DependencyKind.ofJson? : Json → Option DependencyKind
  | .str s =>
    if s = DependencyKind.binding.word then some .binding
    else if s = DependencyKind.remote.word then some .remote
    else none
  | _ => none

/-- The dependency that a JSON value describes. -/
def DependencyRecord.ofJson? (v : Json) : Option DependencyRecord := do
  let projectPath ← requiredMember Json.str? "project_path" v
  let packageName ← requiredMember Json.str? "package_name" v
  let location ← requiredMember Json.str? "location" v
  let version ← requiredMember Json.str? "version" v
  let kind ← requiredMember DependencyKind.ofJson? "kind" v
  let baseRepo ← optionalMember Json.str? "base_repo" v
  let subFolder ← optionalMember Json.str? "sub_folder" v
  let parameters ← keyValuesMember "parameters" v
  let annotations ← keyValuesMember "annotations" v
  return ⟨projectPath, packageName, location, version, kind, baseRepo, subFolder, parameters,
    annotations⟩

/-! ## Plans -/

/-- The map of actions in a member. -/
def recordsMember (name : String) (v : Json) : Option (KeyMap ActionRecord) :=
  memberOr (mapOfJson? ActionRecord.ofJson?) .empty name v

/-- The package with its actions and sequences that a JSON value describes. -/
def PackagePlan.ofJson? (v : Json) : Option PackagePlan := do
  let package ← requiredMember Package.ofJson? "package" v
  let actions ← recordsMember "actions" v
  let sequences ← recordsMember "sequences" v
  return ⟨package, actions, sequences⟩

/-- The plan that a JSON value describes. -/
def Plan.ofJson? (v : Json) : Option Plan := do
  let packages ← requiredMember (mapOfJson? PackagePlan.ofJson?) "packages" v
  let triggers ← memberOr (mapOfJson? Trigger.ofJson?) .empty "triggers" v
  let rules ← memberOr (mapOfJson? Rule.ofJson?) .empty "rules" v
  let routes ← memberOr (listOfJson? Route.ofRequestJson?) [] "apis" v
  let dependencies ← memberOr (mapOfJson? DependencyRecord.ofJson?) .empty "dependencies" v
  return ⟨packages, triggers, rules, routes, dependencies⟩

end DeployPlan
