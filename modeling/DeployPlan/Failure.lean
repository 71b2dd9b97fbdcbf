import DeployPlan.FileTree
import DeployPlan.Runtime
import DeployPlan.Yaml.Decode

/-!
# Failures

## Main definitions

* `DeployPlan.Failure` — why a plan cannot be made.
* `Failure.message` — its text.  It starts with the word for the failure's category, whatever
  names and paths follow.
* `Failure.category` — what a failure is about.
-/

set_option autoImplicit false

namespace DeployPlan

/-- Why a parameter has no value. -/
inductive ParameterFault where
  /-- Its type is none. -/
  | unsupportedType (name : String)
  /-- Its value is of another kind. -/
  | wrongKind (type found : String)
  /-- Its value is a text that does not write a value of the type. -/
  | unreadable (type text : String)
  /-- Its value is a text that is no JSON. -/
  | invalidJson
  deriving DecidableEq, Inhabited

namespace ParameterFault

/-- The text of a fault. -/
def message : ParameterFault → String
  | .unsupportedType name => "unsupported type '" ++ name ++ "'"
  | .wrongKind type found => "expected " ++ type ++ ", found " ++ found
  | .unreadable type text => "expected " ++ type ++ ", found '" ++ text ++ "'"
  | .invalidJson => "invalid json value"

end ParameterFault

/-- Why the runtime of an action cannot be told. -/
inductive RuntimeFault where
  | missingForDirectory
  | missingForZip
  | notDiscovered
  | notSupported
  deriving DecidableEq, Inhabited

namespace RuntimeFault

/-- The text of a fault. -/
def message : RuntimeFault → String
  | .missingForDirectory => "runtime is missing for a directory action"
  | .missingForZip => "runtime is missing for a zip action"
  | .notDiscovered => "failed to discover the runtime from the action source file"
  | .notSupported => "the declared runtime is not supported"

end RuntimeFault

/-- Why a plan cannot be made. -/
inductive Failure where
  /-- The file of a document cannot be read. -/
  | unreadableDocument (path : String) (fault : FileFault)
  /-- A text is no document. -/
  | invalidText (error : Yaml.DecodeError)
  /-- A file is no document. -/
  | invalidDocument (path : String) (error : Yaml.DecodeError)
  /-- The method of a route is none. -/
  | unknownMethod (api method : String)
  /-- The source of an action cannot be read. -/
  | unreadableSource (path : String) (fault : FileFault)
  /-- A directory holds two entries that get one name in its archive. -/
  | duplicateName (path : String)
  /-- A parameter has no value. -/
  | parameter (name path : String) (fault : ParameterFault)
  /-- The runtime of an action cannot be told. -/
  | runtime (fault : RuntimeFault) (file action declared : String)
  /-- A dependency is neither a system package nor a repository. -/
  | unknownLocation (dependency location : String)
  /-- A web mode is none. -/
  | unknownWebMode (mode : String)
  /-- A deployment descriptor sets an annotation that the manifest does not have. -/
  | unknownAnnotationKey (path key : String)
  /-- A managed deployment needs the name of a project. -/
  | namelessProject (path : String)
  /-- The settings cannot be read. -/
  | unreadableSettings (path : String) (fault : FileFault)
  /-- The settings are no settings. -/
  | invalidSettings (path : String)
  /-- A document has no canonical text: a mapping in it ends where a value is expected. -/
  | noCanonicalText

/-- What a failure is about. -/
inductive FailureCategory where
  | manifest
  | deployment
  | settings
  | runtime
  | other
  deriving DecidableEq, Inhabited

namespace Failure

/-- What a message about a runtime asks for. -/
def runtimeHint : String := "Please specify one of the supported runtimes in the manifest"

/-- The text of a decoding error; of a document that is no value it tells just that. -/
def decodeText (e : Yaml.DecodeError) : String :=
  e.message?.getD "the document is not well-formed"

/-- The text of a failure. -/
def message : Failure → String
  | .unreadableDocument path fault =>
    "manifest error: failed to read " ++ path ++ ": " ++ fault.message
  | .invalidText e => "manifest error: failed to parse manifest: " ++ decodeText e
  | .invalidDocument path e =>
    "manifest error: failed to parse " ++ path ++ ": " ++ decodeText e
  | .unknownMethod api method =>
    "manifest error: api '" ++ api ++ "' uses unsupported HTTP method '" ++ method ++ "'"
  | .unreadableSource path fault =>
    "runtime error: runtime I/O error on " ++ path ++ ": " ++ fault.message
  | .duplicateName path =>
    "runtime error: packaging failed for " ++ path ++ ": invalid Zip archive: Duplicate filename"
  | .parameter name path fault =>
    "manifest error: cannot resolve parameter '" ++ name ++ "' in " ++ path ++ ": " ++
      fault.message
  | .runtime fault file action declared =>
    "runtime error: " ++ fault.message ++ ". " ++ runtimeHint ++ " (file: " ++ file ++
      ", action: " ++ action ++ ", runtime: " ++ declared ++ ", supported runtimes: " ++
      Text.join ", " RuntimeFamily.allKinds ++ ")"
  | .unknownLocation dependency location =>
    "runtime error: dependency '" ++ dependency ++ "' has unknown location '" ++ location ++
      "'; only /whisk.system bindings and github.com packages are supported"
  | .unknownWebMode mode =>
    "manifest error: invalid web-export mode '" ++ mode ++
      "' (expected yes, true, no, false or raw)"
  | .unknownAnnotationKey path key =>
    "deployment error: annotation key '" ++ key ++ "' in " ++ path ++
      " does not exist in the manifest"
  | .namelessProject path =>
    "manifest error: managed deployment requires a project name in " ++ path
  | .unreadableSettings path fault =>
    "config error: cannot read " ++ path ++ ": " ++ fault.message
  | .invalidSettings path => "config error: invalid config " ++ path
  | .noCanonicalText =>
    "serialization error: expected SCALAR, SEQUENCE-START, MAPPING-START, or ALIAS"

/-- What a failure is about. -/
def category : Failure → FailureCategory
  | .unreadableDocument _ _ | .invalidText _ | .invalidDocument _ _ | .unknownMethod _ _
  | .parameter _ _ _ | .unknownWebMode _ | .namelessProject _ => .manifest
  | .unknownAnnotationKey _ _ => .deployment
  | .unreadableSettings _ _ | .invalidSettings _ => .settings
  | .unreadableSource _ _ | .duplicateName _ | .runtime _ _ _ _ | .unknownLocation _ _ => .runtime
  | .noCanonicalText => .other

end Failure

end DeployPlan
