import DeployPlan.Plan.Basic

/-!
# Plans as JSON

## Main definitions

* `DeployPlan.Plan.toJson` — the JSON value of a plan.  Empty lists and missing parts of an
  entity are left out.
-/

set_option autoImplicit false

namespace DeployPlan

/-! ## Fields -/

/-- A field that is left out when there is nothing to write. -/
def optionalField {α : Type} (name : String) (toJson : α → Json) :
    Option α → List (String × Json)
  | some v => [(name, toJson v)]
  | none => []

/-- A list that is left out when it is empty. -/
def listField {α : Type} (name : String) (toJson : α → Json) (l : List α) :
    List (String × Json) :=
  if l.isEmpty then [] else [(name, .arr (l.map toJson))]

/-- A map. -/
def mapToJson {α : Type} (toJson : α → Json) (m : KeyMap α) : Json :=
  .obj (m.entries.map fun e => (e.1, toJson e.2))

/-! ## Entities -/

/-- The JSON value of an entry. -/
def KeyValue.toJson (kv : KeyValue) : Json := .object [("key", .str kv.key), ("value", kv.value)]

/-- The JSON value of what an action runs. -/
def Exec.toJson (e : Exec) : Json :=
  .object ([("kind", .str e.kind)] ++ optionalField "code" .str e.code ++
    optionalField "main" .str e.main ++ listField "components" .str e.components ++
    [("binary", .bool e.binary)])

/-- The JSON value of limits. -/
def Limits.toJson (l : Limits) : Json :=
  .object (optionalField "timeout" .int l.timeout ++ optionalField "memory" .int l.memory ++
    optionalField "logs" .int l.logs)

/-- The fields of parameters and annotations. -/
def keyValueFields (parameters annotations : List KeyValue) : List (String × Json) :=
  listField "parameters" KeyValue.toJson parameters ++
    listField "annotations" KeyValue.toJson annotations

/-- The fields that every named entity has. -/
def nameFields (name ns : String) (publish : Bool) : List (String × Json) :=
  [("name", .str name), ("namespace", .str ns), ("publish", .bool publish)]

/-- The JSON value of an action. -/
def Action.toJson (a : Action) : Json :=
  .object (nameFields a.name a.namespace a.publish ++ optionalField "exec" Exec.toJson a.exec ++
    keyValueFields a.parameters a.annotations ++ optionalField "limits" Limits.toJson a.limits)

/-- The JSON value of an action and where it comes from. -/
def ActionRecord.toJson (r : ActionRecord) : Json :=
  .object [("action", r.action.toJson), ("package_name", .str r.packageName),
    ("file_path", .str r.filePath)]

/-- The JSON value of a package. -/
def Package.toJson (p : Package) : Json :=
  .object (nameFields p.name p.namespace p.publish ++ keyValueFields p.parameters p.annotations)

/-- The JSON value of a trigger. -/
def Trigger.toJson (t : Trigger) : Json :=
  .object (nameFields t.name t.namespace t.publish ++ keyValueFields t.parameters t.annotations)

/-- The JSON value of a rule. -/
def Rule.toJson (r : Rule) : Json :=
  .object (nameFields r.name r.namespace r.publish ++
    [("trigger", .str r.trigger), ("action", .str r.action)])

/-- The JSON value of a route. -/
def Route.toJson (r : Route) : Json :=
  .object [("namespace", .str r.namespace), ("apiName", .str r.apiName),
    ("gatewayBasePath", .str r.basePath), ("gatewayRelPath", .str r.relativePath),
    ("gatewayMethod", .str r.method),
    ("action", .object [("name", .str r.action), ("namespace", .str r.actionNamespace),
      ("backendMethod", .str r.backendMethod)])]

/-- The JSON value of the request that creates a route. -/
def Route.requestToJson (r : Route) : Json := .object [("apiDoc", r.toJson)]

/-- The JSON value of a dependency. -/
def DependencyRecord.toJson (d : DependencyRecord) : Json :=
  .object ([("project_path", .str d.projectPath), ("package_name", .str d.packageName),
    ("location", .str d.location), ("version", .str d.version), ("kind", .str d.kind.word)] ++
    optionalField "base_repo" .str d.baseRepo ++ optionalField "sub_folder" .str d.subFolder ++
    keyValueFields d.parameters d.annotations)

/-! ## Plans -/

/-- The JSON value of a package with its actions and sequences. -/
def PackagePlan.toJson (p : PackagePlan) : Json :=
  .object [("package", p.package.toJson), ("actions", mapToJson ActionRecord.toJson p.actions),
    ("sequences", mapToJson ActionRecord.toJson p.sequences)]

/-- The JSON value of a plan. -/
def Plan.toJson (p : Plan) : Json :=
  .object [("packages", mapToJson PackagePlan.toJson p.packages),
    ("triggers", mapToJson Trigger.toJson p.triggers), ("rules", mapToJson Rule.toJson p.rules),
    ("apis", .arr (p.routes.map Route.requestToJson)),
    ("dependencies", mapToJson DependencyRecord.toJson p.dependencies)]

end DeployPlan
