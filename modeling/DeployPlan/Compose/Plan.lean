import DeployPlan.Compose.Action
import DeployPlan.Compose.Entity

/-!
# Composing plans

A plan is composed package by package, in the order of their names.  The first failure ends it.

## Main definitions

* `DeployPlan.Host` — what composing depends on besides its arguments and the file tree.
* `DeployPlan.Context.composeActions`, `composeSequences`, `composeTriggers`, `composeRules` — the
  entities of one package.
* `Manifest.composePackages`, `Manifest.composeActions` and so on — the entities of one kind of
  all packages.
* `Context.addPackage` — the plan with one more package.
* `Manifest.composePlan` — the plan of a document.
-/

set_option autoImplicit false

namespace DeployPlan

/-! ## Hosts -/

/-- What composing a plan depends on besides its arguments and the file tree.  Results about two
plans are about one host; `DeployPlan.buildPlan_redrawn` compares two that draw other names. -/
class Host where
  /-- What packing the directory of an action depends on, by the names of the package and of the
  action. -/
  packer : (package action : String) → Packer
  /-- Whether a path is a text.  One of other bytes is known here by what is shown of it. -/
  isText : (path : String) → Bool

/-! ## The entities of a package -/

namespace Context

/-- The actions of a package. -/
def composeActions [Host] (ctx : Context) (package : String) (spec : PackageSpec) :
    Compose (List ActionRecord) :=
  spec.actions.entries.mapM fun (name, action) =>
    ctx.composeAction (P := Host.packer package name) package name action

/-- The sequences of a package. -/
def composeSequences (ctx : Context) (package : String) (spec : PackageSpec) :
    Report (List ActionRecord) :=
  spec.sequences.entries.mapM fun (name, sequence) => ctx.composeSequence package name sequence

/-- The triggers of a package. -/
def composeTriggers (ctx : Context) (spec : PackageSpec) : Report (List Trigger) :=
  spec.triggers.entries.mapM fun (name, trigger) => ctx.composeTrigger name trigger

/-- The rules of a package. -/
def composeRules (ctx : Context) (package : String) (spec : PackageSpec) :
    Report (List Rule) :=
  spec.rules.entries.mapM fun (name, rule) => ctx.composeRule package name rule

end Context

/-! ## The entities of all packages -/

namespace Manifest

/-- The warning about packages that are given in a former way. -/
def sourceEvents (m : Manifest) : List Event :=
  if m.packageSource.isDeprecated then
    [.warning "the 'package' key is deprecated, use 'packages' instead"]
  else []

/-- Goes on with the context of a document. -/
def withContext {α : Type} (m : Manifest) (settings : Settings) (vars : Variables)
    (body : Context → Compose α) : Compose α := do
  let ctx ← (Report.ofExcept (Context.ofManifest settings vars m) : Report Context)
  body ctx

/-- What the packages of a document become, in the order of their names. -/
def eachPackage {α : Type} (m : Manifest) (compose : String → PackageSpec → Compose α) :
    Compose (List α) :=
  m.resolved.entries.mapM fun (name, spec) => compose name spec

/-- The actions of a document. -/
def composeActions [Host] (m : Manifest) (settings : Settings) (vars : Variables) :
    Compose (List ActionRecord) :=
  m.withContext settings vars fun ctx => do
    return (← m.eachPackage ctx.composeActions).flatten

variable (m : Manifest) (settings : Settings) (vars : Variables)

/-- The packages of a document. -/
def composePackages : Compose (KeyMap Package) :=
  m.withContext settings vars fun ctx => do
    Report.ofEvents m.sourceEvents
    let packages ← m.eachPackage fun name spec => ctx.composePackage name spec
    return KeyMap.ofList (packages.map fun p => (p.name, p))

/-- The sequences of a document. -/
def composeSequences : Compose (List ActionRecord) :=
  m.withContext settings vars fun ctx => do
    return (← m.eachPackage fun name spec => ctx.composeSequences name spec).flatten

/-- The triggers of a document. -/
def composeTriggers : Compose (List Trigger) :=
  m.withContext settings vars fun ctx => do
    return (← m.eachPackage fun _ spec => ctx.composeTriggers spec).flatten

/-- The rules of a document. -/
def composeRules : Compose (List Rule) :=
  m.withContext settings vars fun ctx => do
    return (← m.eachPackage fun name spec => ctx.composeRules name spec).flatten

/-- The routes of a document. -/
def composeRoutes : Compose (List Route) :=
  m.withContext settings vars fun ctx => do
    return (← m.eachPackage fun name spec => ctx.composeRoutes name spec).flatten

/-- The dependencies of a document, by their keys in the plan. -/
def composeDependencies : Compose (KeyMap DependencyRecord) :=
  m.withContext settings vars fun ctx => do
    let records ← m.eachPackage fun name spec => ctx.composeDependencies name spec
    return records.foldl KeyMap.union .empty

end Manifest

/-! ## Plans -/

namespace Plan

/-- The warning about an entity whose name is taken already. -/
def repeatedName (kind name : String) : Event :=
  .warning (kind ++ " " ++ name ++ " is declared in more than one package, keeping the last")

/-- Adds named entities to a map in turn; of two with one name the later stays. -/
def addNamed {α : Type} (kind : String) (name : α → String) (m : KeyMap α) :
    List α → Report (KeyMap α)
  | [] => pure m
  | x :: xs => do
    if m.contains (name x) then Report.ofEvents [repeatedName kind (name x)]
    addNamed kind name (m.insert (name x) x) xs

end Plan

namespace Context

/-- The map of records by the names of their actions. -/
def recordsByName (records : List ActionRecord) : KeyMap ActionRecord :=
  KeyMap.ofList (records.map fun r => (r.action.name, r))

/-- The plan with one more package. -/
def addPackage [Host] (ctx : Context) (plan : Plan) (name : String) (spec : PackageSpec) :
    Compose Plan := do
  Report.log .debug ("composing package " ++ name)
  let package ← ctx.composePackage name spec
  let actions ← ctx.composeActions name spec
  let sequences ← ctx.composeSequences name spec
  let triggers ← ctx.composeTriggers spec
  let allTriggers ← Plan.addNamed "trigger" Trigger.name plan.triggers triggers
  let rules ← ctx.composeRules name spec
  let allRules ← Plan.addNamed "rule" Rule.name plan.rules rules
  let routes ← ctx.composeRoutes name spec
  let dependencies ← ctx.composeDependencies name spec
  return { packages := plan.packages.insert name
             ⟨package, recordsByName actions, recordsByName sequences⟩
           triggers := allTriggers
           rules := allRules
           routes := plan.routes ++ routes
           dependencies := plan.dependencies.union dependencies }

/-- The plan with more packages, in turn. -/
def addPackages [Host] (ctx : Context) (plan : Plan) : List (String × PackageSpec) → Compose Plan
  | [] => pure plan
  | (name, spec) :: rest => do ctx.addPackages (← ctx.addPackage plan name spec) rest

end Context

namespace Plan

/-- The message about a plan that was composed. -/
def summary (p : Plan) : String :=
  "composed " ++ toString p.packages.size ++ " package(s), " ++ toString p.actionCount ++
    " action(s), " ++ toString p.sequenceCount ++ " sequence(s), " ++ toString p.triggers.size ++
    " trigger(s), " ++ toString p.rules.size ++ " rule(s)"

end Plan

/-- The plan of a document. -/
def Manifest.composePlan [Host] (m : Manifest) (settings : Settings) (vars : Variables) :
    Compose Plan :=
  m.withContext settings vars fun ctx => do
    Report.ofEvents m.sourceEvents
    let plan ← ctx.addPackages {} m.resolved.entries
    Report.log .info plan.summary
    return plan

end DeployPlan
