import DeployPlan.Compose.Context
import DeployPlan.Limit
import DeployPlan.Source.Archive
import DeployPlan.Source.Code
import DeployPlan.WebMode

/-!
# Composing actions

## Main definitions

* `DeployPlan.LoadedSource` — the source of an action, with its code.
* `Context.withSource` — goes on with the source of an action; the archive of a directory is there
  for just as long.
* `Context.runtimeKind` — the kind of runtime that an action gets, with warnings.
* `Context.composeAction` — an action.
-/

set_option autoImplicit false

namespace DeployPlan

/-- The source of an action, with its code. -/
structure LoadedSource where
  path : String
  source : Source
  code : Code
  deriving DecidableEq, Inhabited

namespace Context

/-! ## Sources -/

/-- What messages tell as the declared runtime when there is none. -/
def noRuntime : String := "Not Specified in Manifest YAML"

/-- What a file with an extension is as a source. -/
def fileSource (ext : String) : Source := if ext = zipExtension then .archive else .file ext

/-- Why an action without a declared runtime cannot have a file with an extension as its
source. -/
def fileFault? (ext : String) : Option RuntimeFault :=
  if ext = zipExtension then some .missingForZip
  else if (RuntimeFamily.defaultKind? ext).isNone then some .notDiscovered
  else none

/-- The source of an action that is a file. -/
def loadFile (name path : String) (spec : ActionSpec) (t : FileTree) : Report LoadedSource :=
  let ext := FilePath.extension path
  match (if spec.runtime.isEmpty then fileFault? ext else none) with
  | some fault => .fail (.runtime fault path name noRuntime)
  | none => do return ⟨path, fileSource ext, ← Code.load t path ext⟩

/-- Goes on with the source of an action that is a directory. -/
def withDirectory [P : Packer] {α : Type} (name path : String) (spec : ActionSpec)
    (body : LoadedSource → Compose α) : Compose α :=
  if spec.runtime.isEmpty then
    Compose.ofReport (.fail (.runtime .missingForDirectory path name noRuntime))
  else Archive.pack path fun archive => do
    let code ← Compose.looking fun t => Code.load t archive zipExtension
    Report.log .debug ("packed action " ++ name ++ " from " ++ path)
    body ⟨path, .archive, code⟩

/-- Goes on with the source of an action, if it has one. -/
def withSource [P : Packer] {α : Type} (ctx : Context) (name : String) (spec : ActionSpec)
    (body : Option LoadedSource → Compose α) : Compose α :=
  if spec.source.isEmpty then do
    Report.log .debug ("action " ++ name ++ " has no function, composing it as a stub")
    body none
  else fun t =>
    let path := FilePath.join ctx.directory spec.source
    if t.isDirectory path then withDirectory name path spec (fun s => body (some s)) t
    else (do body (some (← Compose.looking (loadFile name path spec))) : Compose α) t

/-! ## Runtimes -/

/-- What an action runs, or nothing if it has no source. -/
def sourceOf (loaded : Option LoadedSource) : Source := (loaded.map (·.source)).getD .stub

/-- The warnings about a decision. -/
def runtimeEvents (name declared : String) (source : Source) :
    RuntimeDecision → List Event
  | .declared | .invalid => []
  | .declaredOverMismatch =>
    [.warning ("runtime " ++ declared ++ " of action " ++ name ++
      " does not match the source file extension; keeping it in strict mode")]
  | .inferredOverMismatch =>
    .warning ("runtime " ++ declared ++ " of action " ++ name ++
      " does not match the source file extension") ::
      source.inferred?.toList.map fun kind =>
        .warning ("runtime of action " ++ name ++ " changed to " ++ kind)
  | .inferredOverUnsupported =>
    .warning ("runtime " ++ declared ++ " of action " ++ name ++ " is not supported") ::
      match source.inferred?, source with
      | some kind, _ => [.warning ("runtime of action " ++ name ++ " changed to " ++ kind)]
      | none, .stub => []
      | none, _ => [.warning ("runtime of action " ++ name ++ " changed to an empty kind")]

/-- The kind of runtime that an action gets, if any. -/
def runtimeKind (ctx : Context) (name declared : String) (loaded : Option LoadedSource) :
    Report (Option String) :=
  let source := sourceOf loaded
  if declared.isEmpty then pure source.inferred?
  else
    let decision := decideRuntime source declared ctx.settings.strict
    ⟨runtimeEvents name declared source decision,
      match decision with
      | .declared | .declaredOverMismatch => .ok (some declared)
      | .inferredOverMismatch | .inferredOverUnsupported => .ok source.inferred?
      | .invalid =>
        .error (.runtime .notSupported ((loaded.map (·.path)).getD "") name declared)⟩

/-! ## Actions -/

/-- What an action runs: its code, or a runtime alone; nothing if there is neither. -/
def exec? (loaded : Option LoadedSource) (kind : Option String) (main : String) :
    Option Exec :=
  let main := if main.isEmpty then none else some main
  match loaded, kind with
  | some s, kind =>
    some { kind := kind.getD "", code := some s.code.text, main := main, binary := s.code.binary }
  | none, some kind => some { kind := kind, main := main }
  | none, none => none

/-- The annotations of an action. -/
def actionAnnotations (ctx : Context) (name : String) (spec : ActionSpec) :
    Report (List KeyValue) := do
  let annotations := ctx.mark (← ctx.annotations spec.annotations)
  if spec.webExport = "true" then return WebMode.exported.annotate annotations
  if !spec.webExport.isEmpty then
    Report.log .debug ("action " ++ name ++ " has web-export '" ++ spec.webExport ++
      "', leaving annotations unchanged")
  return annotations

/-- Checks the outputs of an action, which are not deployed. -/
def checkOutputs (ctx : Context) (name : String) (spec : ActionSpec) : Report Unit := do
  let outputs ← ctx.parameters spec.outputs
  if !outputs.isEmpty then
    Report.log .debug ("action " ++ name ++ " declares " ++ toString outputs.length ++
      " output(s); outputs are validated but not deployed")

/-- The limits of an action. -/
def actionLimits (name : String) (spec : ActionSpec) : Report (Option Limits) :=
  match spec.limits with
  | some limits => limits.composed name
  | none => pure none

/-- An action with the source that was loaded. -/
def actionOf (ctx : Context) (package name : String) (spec : ActionSpec)
    (loaded : Option LoadedSource) : Report ActionRecord := do
  let kind ← ctx.runtimeKind name spec.runtime loaded
  let parameters ← ctx.parameters spec.inputs
  ctx.checkOutputs name spec
  let annotations ← ctx.actionAnnotations name spec
  let limits ← actionLimits name spec
  let ns ← ctx.namespaceOr spec.namespace
  return { action := ⟨name, ns, false, exec? loaded kind spec.main, parameters, annotations,
             limits⟩
           packageName := package
           filePath := (loaded.map (·.path)).getD "" }

/-- An action. -/
def composeAction [P : Packer] (ctx : Context) (package name : String) (spec : ActionSpec) :
    Compose ActionRecord :=
  ctx.withSource name spec fun loaded => Compose.ofReport (ctx.actionOf package name spec loaded)

end Context

end DeployPlan
