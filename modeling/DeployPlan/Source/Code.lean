import DeployPlan.Bytes.Base64
import DeployPlan.Compose.Report

/-!
# The code of an action

## Main definitions

* `DeployPlan.Code` — code as it is sent to the platform.
* `Code.ofBytes` — the code of a file: its text, or its bytes in Base64.
* `Code.load` — the code of the file at a path.
-/

set_option autoImplicit false

namespace DeployPlan

/-- Code as it is sent to the platform. -/
structure Code where
  /-- The text of the file, or its bytes in Base64. -/
  text : String
  /-- Whether `text` is in Base64. -/
  binary : Bool
  deriving DecidableEq, Inhabited

namespace Code

/-- The code of a file with an extension: archives are written in Base64, and so is what is no
UTF-8 text. -/
def ofBytes (ext : String) (bytes : ByteArray) : Code :=
  if isBinaryExtension ext then ⟨Base64.encode bytes.data.toList, true⟩
  else match String.fromUTF8? bytes with
    | some text => ⟨text, false⟩
    | none => ⟨Base64.encode bytes.data.toList, true⟩

/-- The message about a file that is shipped as bytes although its extension does not ask for
it. -/
def events (path ext : String) (bytes : ByteArray) : List Event :=
  if (ofBytes ext bytes).binary && !isBinaryExtension ext then
    [.log .debug (path ++ " is not UTF-8 text, encoding it as binary")]
  else []

/-- The code of the file at a path. -/
def load (t : FileTree) (path ext : String) : Report Code :=
  match t.read path with
  | .ok bytes => ⟨events path ext bytes, .ok (ofBytes ext bytes)⟩
  | .error fault => .fail (.unreadableSource path fault)

end Code

end DeployPlan
