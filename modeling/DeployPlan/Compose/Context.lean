import DeployPlan.Bytes.Digest
import DeployPlan.Manifest.Encode
import DeployPlan.Manifest.Packages
import DeployPlan.Parameter
import DeployPlan.Settings.Basic
import DeployPlan.Yaml.Canonical

/-!
# What composing depends on

## Main definitions

* `DeployPlan.Manifest.canonicalText?`, `digest?` — the canonical text of a document and its
  digest.
* `Manifest.marker` — the annotation that marks entities as owned by a project.
* `DeployPlan.Context` — settings, variables, the document's path and the marker.
* `Context.namespaceOr`, `Context.mark` — what entities take from it.
-/

set_option autoImplicit false

namespace DeployPlan

/-! ## Marked entities -/

/-- The key of the annotation that marks entities. -/
def markerKey : String := "whisk-managed"

namespace Manifest

/-- The canonical text of a document. -/
def canonicalText? (m : Manifest) : Option String := m.encode.canonical?

/-- The digest of a document: that of its canonical text. -/
def digest? (m : Manifest) : Option String :=
  m.canonicalText?.map fun text => Digest.hex text.toUTF8.data.toList

/-- The annotation that marks the entities of a document as owned by its project. -/
def marker (m : Manifest) : Except Failure KeyValue :=
  match m.projectName? with
  | none => .error (.namelessProject m.path)
  | some name => match m.digest? with
    | none => .error .noCanonicalText
    | some digest => .ok ⟨markerKey, .object [("projectName", .str name),
        ("projectHash", .str digest), ("file", .str m.path)]⟩

end Manifest

/-! ## Contexts -/

/-- What the entities of a document are composed with. -/
structure Context where
  settings : Settings
  vars : Variables
  /-- The path of the document. -/
  path : String
  /-- The annotation that marks entities, if they are marked. -/
  marker : Option KeyValue := none

namespace Context

/-- The context of a document. -/
def ofManifest (settings : Settings) (vars : Variables) (m : Manifest) :
    Except Failure Context :=
  if settings.managed then
    m.marker.map fun marker => ⟨settings, vars, m.path, some marker⟩
  else .ok ⟨settings, vars, m.path, none⟩

/-- The directory of the document, from which sources are found. -/
def directory (ctx : Context) : String := (FilePath.parent? ctx.path).getD ""

/-- The namespace of an entity: its own, or that of the settings. -/
def namespaceOr (ctx : Context) (declared : String) : Report String :=
  if declared.isEmpty then pure ctx.settings.namespace
  else Interpolation.resolve ctx.vars declared

/-- Annotations with the marker, if entities are marked: it comes last, and no other annotation
has its key. -/
def mark (ctx : Context) (annotations : List KeyValue) : List KeyValue :=
  match ctx.marker with
  | some marker => KeyValues.remove marker.key annotations ++ [marker]
  | none => annotations

/-- The parameters of an entity. -/
def parameters (ctx : Context) (inputs : KeyMap ParamSpec) : Report (List KeyValue) :=
  resolveParams ctx.vars ctx.path inputs

/-- The annotations of an entity, without the marker. -/
def annotations (ctx : Context) (declared : KeyMap Yaml.Value) : Report (List KeyValue) :=
  resolveAnnotations ctx.vars declared

end Context

end DeployPlan
