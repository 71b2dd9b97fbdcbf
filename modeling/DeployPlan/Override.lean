import DeployPlan.Compose.Context

/-!
# Overriding a plan

A deployment descriptor has the shape of a manifest and addresses the packages, actions and
triggers of a plan by their names.  Its inputs win over those of the plan and may be new; its
annotations replace values that the plan has.

## Main definitions

* `DeployPlan.Revision` — a change in steps, which stops at the first failure.
* `Override.mergeInputs` — the parameters of an entity with the inputs of a descriptor.
* `Override.setAnnotations` — replaces the values of annotations.
* `Override.revisePackages`, `reviseActions`, `reviseTriggers` — the three passes over a plan.
* `Override.apply` — all of them.
-/

set_option autoImplicit false

namespace DeployPlan

/-! ## Revisions -/

/-- A change in steps: what is left, even after a failure, and the report. -/
def Revision (σ : Type) : Type := σ → σ × Report Unit

namespace Revision

variable {σ τ : Type}

/-- Changes nothing. -/
def skip : Revision σ := fun s => (s, pure ())

/-- Changes nothing and has something to say. -/
def saying (es : List Event) : Revision σ := fun s => (s, Report.ofEvents es)

/-- One revision after another, unless the first fails. -/
def andThen (a b : Revision σ) : Revision σ := fun s =>
  let (s₁, r₁) := a s
  match r₁.result with
  | .ok _ => let (s₂, r₂) := b s₁; (s₂, ⟨r₁.events ++ r₂.events, r₂.result⟩)
  | .error _ => (s₁, r₁)

/-- Revisions in turn, up to the first that fails. -/
def all (revisions : List (Revision σ)) : Revision σ := revisions.foldr andThen skip

/-- Revises the value under a key, if there is one; `missing` is what is said otherwise. -/
def atKey (key : String) (missing : List Event) (revision : Revision σ) :
    Revision (KeyMap σ) := fun m =>
  match m.get? key with
  | some v => let (v', r) := revision v; (m.insert key v', r)
  | none => (m, Report.ofEvents missing)

/-- Revises a part of a value. -/
def onPart (part : τ → σ) (put : σ → τ → τ) (revision : Revision σ) : Revision τ := fun t =>
  let (s, r) := revision (part t)
  (put s t, r)

end Revision

namespace Override

/-! ## Inputs -/

/-- The entries that inputs set, in the order of their keys: those that are not null. -/
def inputEntries (vars : Variables) (inputs : KeyMap ParamSpec) : List KeyValue :=
  inputs.entries.filterMap fun (key, spec) =>
    spec.rawValue?.bind fun v => (v.resolved vars).nonNull?.map (KeyValue.mk key)

/-- The messages about inputs. -/
def inputEvents (vars : Variables) (inputs : KeyMap ParamSpec) : List Event :=
  inputs.entries.flatMap fun (_, spec) =>
    (spec.rawValue?.map (Yaml.Value.resolveEvents vars)).getD []

/-- Entries with others behind them, of each key only the first. -/
def addMissing (entries others : List KeyValue) : List KeyValue :=
  others.foldl (fun list kv => if KeyValues.has kv.key list then list else list ++ [kv]) entries

/-- The parameters of an entity with the inputs of a descriptor before them.  Without inputs they
stay as they are. -/
def mergeInputs (vars : Variables) (inputs : KeyMap ParamSpec) (parameters : List KeyValue) :
    List KeyValue :=
  if inputs.isEmpty then parameters else addMissing (inputEntries vars inputs) parameters

/-- Sets the parameters of an entity. -/
def setInputs (vars : Variables) (inputs : KeyMap ParamSpec) : Revision (List KeyValue) :=
  fun parameters => (mergeInputs vars inputs parameters,
    Report.ofEvents (inputEvents vars inputs))

/-! ## Annotations -/

/-- Replaces the value of an annotation, which has to be there.  References in the new value are
not replaced. -/
def setAnnotationAt (path key : String) (v : Yaml.Value) : Revision (List KeyValue) :=
  fun annotations =>
    if KeyValues.has key annotations then
      (KeyValues.replaceFirst key v.toJson annotations,
        Report.ofEvents (v.droppedKeys.map Event.droppedKey))
    else (annotations, .fail (.unknownAnnotationKey path key))

/-- Replaces the values of annotations, in the order of their keys. -/
def setAnnotations (path : String) (annotations : KeyMap Yaml.Value) :
    Revision (List KeyValue) :=
  .all (annotations.entries.map fun (key, v) => setAnnotationAt path key v)

/-! ## Entities -/

section Entities

variable (settings : Settings) (vars : Variables) (path : String)

/-- Revises a package. -/
def revisePackage (spec : PackageSpec) : Revision Package :=
  .andThen
    (.onPart Package.parameters (fun l p => { p with parameters := l })
      (setInputs vars spec.inputs))
    (.onPart Package.annotations (fun l p => { p with annotations := l })
      (setAnnotations path spec.annotations))

/-- Revises an action. -/
def reviseAction (spec : ActionSpec) : Revision Action :=
  .andThen
    (.onPart Action.parameters (fun l a => { a with parameters := l })
      (setInputs vars spec.inputs))
    (.onPart Action.annotations (fun l a => { a with annotations := l })
      (setAnnotations path spec.annotations))

/-- Revises a trigger. -/
def reviseTrigger (spec : TriggerSpec) : Revision Trigger :=
  .andThen
    (.onPart Trigger.parameters (fun l t => { t with parameters := l })
      (setInputs vars spec.inputs))
    (.onPart Trigger.annotations (fun l t => { t with annotations := l })
      (setAnnotations path spec.annotations))

/-! ## Passes -/

/-- The message about a package that the plan lacks. -/
def unmatchedPackage (name : String) : Event :=
  .warning ("package " ++ name ++ " in the deployment file does not match the manifest")

/-- The message about an action or trigger that the plan lacks. -/
def unmatchedEntity (kind name : String) : Event :=
  .log .debug (kind ++ " " ++ name ++ " in the deployment file is not in the manifest")

/-- Revises the packages of a plan in turn.  One that the plan lacks is passed over or, depending
on the settings, ends the search; `missing` is what is said about it. -/
def eachPackage (missing : String → List Event)
    (revise : String → PackageSpec → Revision PackagePlan) :
    List (String × PackageSpec) → Revision (KeyMap PackagePlan)
  | [] => .skip
  | (name, spec) :: rest => fun packages =>
    if packages.contains name || settings.skipUnmatchedPackages then
      (Revision.andThen (.atKey name (missing name) (revise name spec))
        (eachPackage missing revise rest)) packages
    else (packages, Report.ofEvents (missing name))

/-- The first pass: the packages themselves. -/
def revisePackages (specs : List (String × PackageSpec)) : Revision (KeyMap PackagePlan) :=
  eachPackage settings (fun name => [unmatchedPackage name])
    (fun _ spec => .onPart PackagePlan.package (fun p q => { q with package := p })
      (revisePackage vars path spec)) specs

/-- Revises the actions of a package. -/
def revisePackageActions (name : String) (spec : PackageSpec) : Revision PackagePlan :=
  .onPart PackagePlan.actions (fun m q => { q with actions := m })
    (.all (spec.actions.entries.map fun (action, actionSpec) =>
      .atKey action [unmatchedEntity "action" (name ++ "/" ++ action)]
        (.onPart ActionRecord.action (fun a r => { r with action := a })
          (reviseAction vars path actionSpec))))

/-- The second pass: the actions of the packages. -/
def reviseActions (specs : List (String × PackageSpec)) : Revision (KeyMap PackagePlan) :=
  eachPackage settings (fun _ => []) (revisePackageActions vars path) specs

/-- The third pass: the triggers of all packages, whether the plan has the packages or not. -/
def reviseTriggers (specs : List (String × PackageSpec)) : Revision (KeyMap Trigger) :=
  .all ((specs.flatMap fun (_, spec) => spec.triggers.entries).map fun (name, spec) =>
    .atKey name [unmatchedEntity "trigger" name] (reviseTrigger vars path spec))

end Entities

/-! ## Descriptors -/

/-- The warning about packages that are given in a former way. -/
def sourceEvents (descriptor : Manifest) : List Event :=
  if descriptor.packageSource.isDeprecated then
    [.warning
      "the 'package' key in the deployment file is deprecated, use 'packages' instead"]
  else []

/-- Overrides a plan by a descriptor: packages, then actions, then triggers. -/
def apply (settings : Settings) (vars : Variables) (descriptor : Manifest) : Revision Plan :=
  let specs := descriptor.resolved.entries
  let onPackages (r : Revision (KeyMap PackagePlan)) : Revision Plan :=
    .onPart Plan.packages (fun m p => { p with packages := m }) r
  .all [.saying (sourceEvents descriptor),
    onPackages (revisePackages settings vars descriptor.path specs),
    onPackages (reviseActions settings vars descriptor.path specs),
    .onPart Plan.triggers (fun m p => { p with triggers := m })
      (reviseTriggers vars descriptor.path specs)]

end Override

end DeployPlan
