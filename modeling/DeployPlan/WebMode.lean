import DeployPlan.Failure
import DeployPlan.Plan.Basic
import DeployPlan.Text.LetterCase

/-!
# Web modes

Three annotations tell how an action is reached over the web.  They are always set together.

## Main definitions

* `DeployPlan.WebMode` — the modes.
* `WebMode.annotate` — annotations for a mode.
* `WebMode.annotate?` — the same for the word of a mode and annotations that may be missing.
-/

set_option autoImplicit false

namespace DeployPlan

/-- How an action is reached over the web. -/
inductive WebMode where
  /-- It is reached, and its input is decoded for it. -/
  | exported
  /-- It is not reached. -/
  | hidden
  /-- It is reached, and gets its input as it comes. -/
  | raw
  deriving DecidableEq, Inhabited

namespace WebMode

/-- The mode of a word, whatever the case of its letters. -/
def ofWord? (word : String) : Option WebMode :=
  let word := Text.toLower word
  if word = "yes" ∨ word = "true" then some .exported
  else if word = "no" ∨ word = "false" then some .hidden
  else if word = "raw" then some .raw
  else none

/-- The annotations of a mode. -/
def annotations (mode : WebMode) : List KeyValue :=
  [⟨"web-export", .bool (mode != .hidden)⟩, ⟨"raw-http", .bool (mode == .raw)⟩,
    ⟨"final", .bool (mode != .hidden)⟩]

/-- The keys of the annotations of all modes. -/
def keys : List String := ["web-export", "raw-http", "final"]

/-- Annotations for a mode: those of the mode come last, and no others have their keys. -/
def annotate (mode : WebMode) (list : List KeyValue) : List KeyValue :=
  (list.filter fun kv => !keys.contains kv.key) ++ mode.annotations

/-- Annotations for the word of a mode.  A missing list stays missing if `fetch` asks for that. -/
def annotate? (word : String) (list : Option (List KeyValue)) (fetch : Bool) :
    Except Failure (Option (List KeyValue)) :=
  match ofWord? word with
  | none => .error (.unknownWebMode word)
  | some mode =>
    if list.isNone && fetch then .ok none else .ok (some (mode.annotate (list.getD [])))

end WebMode

end DeployPlan
