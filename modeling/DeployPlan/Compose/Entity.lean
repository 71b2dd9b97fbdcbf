import DeployPlan.Compose.Context
import DeployPlan.License
import DeployPlan.Location
import DeployPlan.Manifest.Route
import DeployPlan.Reference

/-!
# Composing packages, sequences, triggers, rules, routes and dependencies

## Main definitions

* `DeployPlan.Context.composePackage`, `composeSequence`, `composeTrigger`, `composeRule` — single
  entities.
* `Context.composeRoutes` — the routes of a package.
* `Context.composeDependencies` — the dependencies of a package, by their keys in the plan.
-/

set_option autoImplicit false

namespace DeployPlan

namespace Context

/-! ## Packages -/

/-- The warnings about the version and the license of a package, which the platform does not
keep. -/
def packageEvents (name : String) (spec : PackageSpec) : List Event :=
  (if spec.version.isEmpty then
    [.warning ("package " ++ name ++ " has no version, using default 0.0.1"),
      .warning ("package " ++ name ++ ": version is not saved on the platform")]
    else []) ++
  (if spec.license.isEmpty then
    [.warning ("package " ++ name ++ " has no license, using default " ++ License.default),
      .warning ("package " ++ name ++ ": license is not saved on the platform")]
    else if !License.isKnown spec.license then
      [.warning ("package " ++ name ++ " declares unrecognized license '" ++ spec.license ++
        "'")]
    else [])

/-- A package. -/
def composePackage (ctx : Context) (name : String) (spec : PackageSpec) : Report Package := do
  Report.ofEvents (packageEvents name spec)
  let parameters ← ctx.parameters spec.inputs
  let annotations ← ctx.annotations spec.annotations
  let ns ← ctx.namespaceOr spec.namespace
  return ⟨name, ns, false, parameters, ctx.mark annotations⟩

/-! ## Sequences -/

/-- The kind of what a sequence runs. -/
def sequenceKind : String := "sequence"

/-- A sequence. -/
def composeSequence (ctx : Context) (package name : String) (spec : SequenceSpec) :
    Report ActionRecord := do
  let annotations ← ctx.annotations spec.annotations
  Report.ofEvents ((Reference.warnings spec.actions).map Event.warning)
  let ns := ctx.settings.namespace
  let exec : Exec :=
    { kind := sequenceKind, components := Reference.components ns package spec.actions }
  return { action := ⟨name, ns, false, some exec, [], ctx.mark annotations, none⟩
           packageName := package
           filePath := name }

/-! ## Triggers -/

/-- The key of the annotation that names the feed of a trigger. -/
def feedKey : String := "feed"

/-- The annotations of a trigger with a feed: the feed comes first, and no other annotation has
its key. -/
def withFeed (feed : String) (annotations : List KeyValue) : List KeyValue :=
  if feed.isEmpty then annotations
  else ⟨feedKey, .str feed⟩ :: KeyValues.remove feedKey annotations

/-- The warning about an annotation that gives way to the feed. -/
def feedEvents (name feed : String) (annotations : List KeyValue) : List Event :=
  if !feed.isEmpty && KeyValues.has feedKey annotations then
    [.warning ("trigger " ++ name ++ ": annotation '" ++ feedKey ++
      "' is replaced by the declared feed")]
  else []

/-- The warning about the former name of the feed. -/
def sourceEvents (name : String) (spec : TriggerSpec) : List Event :=
  if spec.source.isEmpty then []
  else [.warning ("trigger " ++ name ++ ": the 'source' key is deprecated, use 'feed' instead")]

/-- A trigger. -/
def composeTrigger (ctx : Context) (name : String) (spec : TriggerSpec) : Report Trigger := do
  Report.ofEvents (sourceEvents name spec)
  let annotations ← ctx.annotations spec.annotations
  Report.ofEvents (feedEvents name spec.feedSource annotations)
  let composedName ← Interpolation.resolve ctx.vars name
  let ns ← ctx.namespaceOr spec.namespace
  let parameters ← ctx.parameters spec.inputs
  return ⟨composedName, ns, false, parameters, ctx.mark (withFeed spec.feedSource annotations)⟩

/-! ## Rules -/

/-- A rule. -/
def composeRule (ctx : Context) (package name : String) (spec : RuleSpec) : Report Rule := do
  let composedName ← Interpolation.resolve ctx.vars name
  let ns ← ctx.namespaceOr spec.namespace
  let trigger ← Interpolation.resolve ctx.vars spec.trigger
  let action ← Interpolation.resolve ctx.vars spec.action
  return ⟨composedName, ns, false, trigger, Reference.qualify package action⟩

/-! ## Routes -/

/-- The routes of a package. -/
def composeRoutes (ctx : Context) (name : String) (spec : PackageSpec) :
    Report (List Route) := do
  let ns ← ctx.namespaceOr spec.namespace
  Report.ofExcept ((spec.routes name ns).mapError fun e => .unknownMethod e.api e.method)

/-! ## Dependencies -/

/-- The version of a dependency that declares none. -/
def defaultVersion : String := "master"

/-- The key of a dependency in the plan. -/
def dependencyKey (package dependency : String) : String := package ++ ":" ++ dependency

/-- A dependency. -/
def composeDependency (ctx : Context) (package name : String) (spec : DependencySpec) :
    Report DependencyRecord := do
  match Location.ofText? spec.location with
  | none => Report.fail (.unknownLocation name spec.location)
  | some location =>
    let parameters ← ctx.parameters spec.inputs
    let annotations ← ctx.annotations spec.annotations
    return { projectPath := FilePath.join ctx.directory "Packages"
             packageName := package
             location := location.address
             version := if spec.version.isEmpty then defaultVersion else spec.version
             kind := location.kind
             baseRepo := location.baseRepo
             subFolder := location.subFolder
             parameters := parameters
             annotations := annotations }

/-- The dependencies of a package, by their keys in the plan. -/
def composeDependencies (ctx : Context) (package : String) (spec : PackageSpec) :
    Report (KeyMap DependencyRecord) := do
  let records ← spec.dependencies.entries.mapM fun (name, dependency) => do
    return (dependencyKey package name, ← ctx.composeDependency package name dependency)
  return KeyMap.ofList records

end Context

end DeployPlan
