import DeployPlan.Compose.Plan
import DeployPlan.Proofs.Compose.Result
import DeployPlan.Proofs.ScratchFile

/-!
# What single entities become

The result of composing an entity, without the messages on the way.  Annotations and namespaces
always have a result; parameters, routes, dependencies and actions may fail.  An action may pack
a directory on the way, and leaves the tree as it was found.

## Main definitions

* `DeployPlan.resolvedAnnotations` — the annotations of an entity.
* `Context.namespaceFor` — the namespace of an entity.
* `Context.dependencyRecord`, `actionRecord` — records with what was found out.
* `Context.sourceAt` — the source of an action, as it is found in a tree.

## Main results

* `Context.composePackage_result`, `composeSequence_result`, `composeTrigger_result`,
  `composeRule_result`, `composeDependency_result` — one equation for each kind of entity.
* `Context.composeAction_leavesTree` — composing an action leaves the tree alone.
* `Context.composeAction_resultAt`, `composeAction_eq_ok_iff` — an action is composed from its
  source, and when it can be.
-/

set_option autoImplicit false

namespace DeployPlan

/-! ## Annotations and namespaces -/

/-- The annotations of an entity, in the order of their names, without the null ones. -/
def resolvedAnnotations (vars : Variables) (annotations : KeyMap Yaml.Value) : List KeyValue :=
  annotations.entries.filterMap fun e => (e.2.resolved vars).nonNull?.map (KeyValue.mk e.1)

namespace Context

variable (ctx : Context)

/-- Annotations are resolved without fail. -/
@[simp] theorem annotations_result (declared : KeyMap Yaml.Value) :
    (ctx.annotations declared).result = .ok (resolvedAnnotations ctx.vars declared) := rfl

/-- The namespace of an entity: its own, with references replaced, or that of the settings. -/
def namespaceFor (declared : String) : String :=
  if declared.isEmpty then ctx.settings.namespace else Interpolation.expand ctx.vars declared

/-- So is a namespace. -/
@[simp] theorem namespaceOr_result (declared : String) :
    (ctx.namespaceOr declared).result = .ok (ctx.namespaceFor declared) := by
  rw [namespaceOr, namespaceFor]
  split <;> rfl

/-- References in a text are replaced without fail. -/
@[simp] theorem resolve_result (s : String) :
    (Interpolation.resolve ctx.vars s).result = .ok (Interpolation.expand ctx.vars s) := rfl

/-! ## Entities without a source -/

/-- A package can be composed if its parameters can. -/
theorem composePackage_result (name : String) (spec : PackageSpec) :
    (ctx.composePackage name spec).result =
      (fun parameters => ⟨name, ctx.namespaceFor spec.namespace, false, parameters,
        ctx.mark (resolvedAnnotations ctx.vars spec.annotations)⟩) <$>
      (ctx.parameters spec.inputs).result := by
  simp [composePackage]

/-- A sequence can always be composed. -/
theorem composeSequence_result (package name : String) (spec : SequenceSpec) :
    (ctx.composeSequence package name spec).result = .ok
      { action := ⟨name, ctx.settings.namespace, false,
          some { kind := sequenceKind,
                 components := Reference.components ctx.settings.namespace package spec.actions },
          [], ctx.mark (resolvedAnnotations ctx.vars spec.annotations), none⟩
        packageName := package
        filePath := name } := by
  simp [composeSequence]

/-- A trigger can be composed if its parameters can. -/
theorem composeTrigger_result (name : String) (spec : TriggerSpec) :
    (ctx.composeTrigger name spec).result =
      (fun parameters => ⟨Interpolation.expand ctx.vars name, ctx.namespaceFor spec.namespace,
        false, parameters,
        ctx.mark (withFeed spec.feedSource (resolvedAnnotations ctx.vars spec.annotations))⟩) <$>
      (ctx.parameters spec.inputs).result := by
  simp [composeTrigger]

/-- A rule can always be composed. -/
theorem composeRule_result (package name : String) (spec : RuleSpec) :
    (ctx.composeRule package name spec).result = .ok
      ⟨Interpolation.expand ctx.vars name, ctx.namespaceFor spec.namespace, false,
        Interpolation.expand ctx.vars spec.trigger,
        Reference.qualify package (Interpolation.expand ctx.vars spec.action)⟩ := by
  simp [composeRule]

/-- The record of a dependency whose location was understood. -/
def dependencyRecord (package : String) (spec : DependencySpec) (location : Location)
    (parameters : List KeyValue) : DependencyRecord where
  projectPath := FilePath.join ctx.directory "Packages"
  packageName := package
  location := location.address
  version := if spec.version.isEmpty then defaultVersion else spec.version
  kind := location.kind
  baseRepo := location.baseRepo
  subFolder := location.subFolder
  parameters := parameters
  annotations := resolvedAnnotations ctx.vars spec.annotations

/-- A dependency can be composed if its location is understood and its parameters can be resolved.
-/
theorem composeDependency_result (package name : String) (spec : DependencySpec) :
    (ctx.composeDependency package name spec).result =
      match Location.ofText? spec.location with
      | none => .error (.unknownLocation name spec.location)
      | some location => ctx.dependencyRecord package spec location <$>
          (ctx.parameters spec.inputs).result := by
  rw [composeDependency]
  cases Location.ofText? spec.location with
  | none => rfl
  | some location =>
    simp only [Report.result_bind, annotations_result, Report.result_pure,
      Except.bind_ok_eq_map]
    rfl

/-- The dependencies of a package can be composed if each can. -/
theorem composeDependencies_result (package : String) (spec : PackageSpec) :
    (ctx.composeDependencies package spec).result =
      KeyMap.ofList <$> spec.dependencies.entries.mapM fun e =>
        Prod.mk (dependencyKey package e.1) <$> (ctx.composeDependency package e.1 e.2).result := by
  simp only [composeDependencies, Report.result_bind, Report.result_mapM, Report.result_pure,
    Except.bind_ok_eq_map]

/-- The dependencies of a package do not depend on the settings or the marker. -/
theorem composeDependencies_congr {ctx ctx' : Context} (hvars : ctx'.vars = ctx.vars)
    (hpath : ctx'.path = ctx.path) (package : String) (spec : PackageSpec) :
    (ctx'.composeDependencies package spec).result =
      (ctx.composeDependencies package spec).result := by
  have hdependency : ∀ name dependency,
      (ctx'.composeDependency package name dependency).result =
        (ctx.composeDependency package name dependency).result := by
    intro name dependency
    rw [composeDependency_result, composeDependency_result]
    cases Location.ofText? dependency.location with
    | none => rfl
    | some location =>
      have hrecord : ctx'.dependencyRecord package dependency location =
          ctx.dependencyRecord package dependency location := by
        funext parameters
        rw [dependencyRecord, dependencyRecord, directory, directory, hvars, hpath]
      have hparameters : ctx'.parameters dependency.inputs = ctx.parameters dependency.inputs := by
        rw [Context.parameters, Context.parameters, hvars, hpath]
      show ctx'.dependencyRecord package dependency location <$> _ = _
      rw [hrecord, hparameters]
  simp only [composeDependencies_result, hdependency]

/-! ## Actions -/

/-- The annotations of an action. -/
def annotationsFor (spec : ActionSpec) : List KeyValue :=
  let annotations := ctx.mark (resolvedAnnotations ctx.vars spec.annotations)
  if spec.webExport = "true" then WebMode.exported.annotate annotations else annotations

/-- The annotations of an action are resolved without fail. -/
@[simp] theorem actionAnnotations_result (name : String) (spec : ActionSpec) :
    (ctx.actionAnnotations name spec).result = .ok (ctx.annotationsFor spec) := by
  simp only [actionAnnotations, Report.result_bind, annotations_result, Except.ok_bind,
    annotationsFor]
  split
  · rfl
  · split <;> rfl

/-- Limits out of bounds are left out, and so are limits of which nothing is left. -/
@[simp] theorem actionLimits_result (name : String) (spec : ActionSpec) :
    (actionLimits name spec).result =
      .ok (spec.limits.bind fun limits =>
        some limits.withinBounds |>.filter fun l => !l.isEmpty) := by
  rw [actionLimits]
  cases spec.limits <;> rfl

/-- The record of an action with what was found out about it. -/
def actionRecord (package name : String) (spec : ActionSpec) (loaded : Option LoadedSource)
    (kind : Option String) (parameters : List KeyValue) : ActionRecord where
  action := ⟨name, ctx.namespaceFor spec.namespace, false, exec? loaded kind spec.main, parameters,
    ctx.annotationsFor spec,
    spec.limits.bind fun limits => some limits.withinBounds |>.filter fun l => !l.isEmpty⟩
  packageName := package
  filePath := (loaded.map (·.path)).getD ""

/-- An action can be composed from its source if it has a runtime, and its parameters and outputs
can be resolved. -/
theorem actionOf_result (package name : String) (spec : ActionSpec)
    (loaded : Option LoadedSource) :
    (ctx.actionOf package name spec loaded).result = do
      let kind ← (ctx.runtimeKind name spec.runtime loaded).result
      let parameters ← (ctx.parameters spec.inputs).result
      let _ ← (ctx.parameters spec.outputs).result
      return ctx.actionRecord package name spec loaded kind parameters := by
  have houtputs : (ctx.checkOutputs name spec).result =
      (fun _ => ()) <$> (ctx.parameters spec.outputs).result := by
    rw [checkOutputs, Report.result_bind]
    cases (ctx.parameters spec.outputs).result with
    | error failure => rfl
    | ok outputs =>
      simp only [Except.ok_bind]
      split <;> rfl
  simp [actionOf, actionRecord, houtputs]

/-! ## Sources of actions -/

section Sources

variable [P : Packer] {α β : Type} {name path : String} {spec : ActionSpec}

/-- The archive of a directory is gone in the end. -/
theorem withDirectory_leavesTree {body : LoadedSource → Compose α}
    (h : ∀ loaded, (body loaded).LeavesTree) : (withDirectory name path spec body).LeavesTree := by
  rw [withDirectory]
  split
  · exact Compose.leavesTree_ofReport _
  · refine Archive.pack_leavesTree path fun archive => ?_
    refine (Compose.leavesTree_looking _).bind fun code => ?_
    exact (Compose.leavesTree_liftM _).bind fun _ => h _

/-- The source of an action is nothing, a directory or a file. -/
theorem withSource_apply (body : Option LoadedSource → Compose α) (t : FileTree) :
    ctx.withSource name spec body t =
      if spec.source.isEmpty then
        ((liftM (Report.log .debug ("action " ++ name ++
          " has no function, composing it as a stub")) : Compose Unit) >>= fun _ => body none) t
      else if t.isDirectory (FilePath.join ctx.directory spec.source) then
        withDirectory name (FilePath.join ctx.directory spec.source) spec
          (fun loaded => body (some loaded)) t
      else (Compose.looking (loadFile name (FilePath.join ctx.directory spec.source) spec) >>=
        fun loaded => body (some loaded)) t := by
  rw [withSource]
  cases spec.source.isEmpty <;> rfl

/-- Going on with the source of an action leaves the tree alone, if what goes on does. -/
theorem withSource_leavesTree {body : Option LoadedSource → Compose α}
    (h : ∀ loaded, (body loaded).LeavesTree) : (ctx.withSource name spec body).LeavesTree := by
  intro t
  rw [withSource_apply]
  split
  · exact ((Compose.leavesTree_liftM _).bind fun _ => h none) t
  split
  · exact withDirectory_leavesTree (fun loaded => h (some loaded)) t
  · exact ((Compose.leavesTree_looking _).bind fun loaded => h (some loaded)) t

/-- What follows on a directory may wait until its archive is gone. -/
theorem withDirectory_bind_resultAt (body : LoadedSource → Compose α) (f : α → Report β)
    (t : FileTree) :
    (withDirectory name path spec fun loaded =>
        body loaded >>= fun a => Compose.ofReport (f a)).resultAt t =
      (withDirectory name path spec body).resultAt t >>= fun a => (f a).result := by
  rw [withDirectory, withDirectory]
  split
  · rfl
  · rw [← Archive.pack_bind_resultAt]
    simp only [bind_assoc]

/-- What follows on the source of an action may as well wait until an archive is gone, if it does
not look at the tree. -/
theorem withSource_bind_resultAt (body : Option LoadedSource → Compose α) (f : α → Report β)
    (t : FileTree) :
    (ctx.withSource name spec fun loaded =>
        body loaded >>= fun a => Compose.ofReport (f a)).resultAt t =
      (ctx.withSource name spec body).resultAt t >>= fun a => (f a).result := by
  rw [Compose.resultAt, Compose.resultAt, withSource_apply, withSource_apply]
  split
  · rw [← bind_assoc]
    exact Compose.resultAt_bind_ofReport _ f t
  split
  · exact withDirectory_bind_resultAt _ f t
  · rw [← bind_assoc]
    exact Compose.resultAt_bind_ofReport _ f t

end Sources

variable [P : Packer]

/-- The source of an action, if it has one, as it is found in a tree. -/
def sourceAt (name : String) (spec : ActionSpec) (t : FileTree) :
    Except Failure (Option LoadedSource) :=
  (ctx.withSource name spec pure).resultAt t

/-- **Composing an action leaves the tree as it was found**, also if the action is a directory. -/
theorem composeAction_leavesTree (package name : String) (spec : ActionSpec) :
    (ctx.composeAction package name spec).LeavesTree :=
  ctx.withSource_leavesTree fun _ => Compose.leavesTree_ofReport _

/-- **An action is composed from its source** as it is found in the tree. -/
theorem composeAction_resultAt (package name : String) (spec : ActionSpec) (t : FileTree) :
    (ctx.composeAction package name spec).resultAt t =
      ctx.sourceAt name spec t >>= fun loaded =>
        (ctx.actionOf package name spec loaded).result := by
  rw [sourceAt, ← withSource_bind_resultAt, composeAction]
  simp only [pure_bind]

/-- An action is composed if its source is found, it has a runtime, and its parameters and outputs
can be resolved. -/
theorem composeAction_eq_ok_iff {package name : String} {spec : ActionSpec} {t : FileTree}
    {r : ActionRecord} :
    (ctx.composeAction package name spec).resultAt t = .ok r ↔
      ∃ loaded kind parameters,
        ctx.sourceAt name spec t = .ok loaded ∧
        (ctx.runtimeKind name spec.runtime loaded).result = .ok kind ∧
        (ctx.parameters spec.inputs).result = .ok parameters ∧
        (∃ outputs, (ctx.parameters spec.outputs).result = .ok outputs) ∧
        ctx.actionRecord package name spec loaded kind parameters = r := by
  simp only [composeAction_resultAt, actionOf_result, Except.bind_eq_ok_iff]
  constructor
  · rintro ⟨loaded, hloaded, kind, hkind, parameters, hparameters, outputs, houtputs, hr⟩
    exact ⟨loaded, kind, parameters, hloaded, hkind, hparameters, ⟨outputs, houtputs⟩,
      Except.ok.inj hr⟩
  · rintro ⟨loaded, kind, parameters, hloaded, hkind, hparameters, ⟨outputs, houtputs⟩, rfl⟩
    exact ⟨loaded, hloaded, kind, hkind, parameters, hparameters, outputs, houtputs, rfl⟩

end Context

end DeployPlan
