import DeployPlan.Text.Blank

/-!
# References to actions

Sequences and rules name actions, by a name of their own package or by a path.

## Main definitions

* `DeployPlan.Reference.qualify` — a reference behind the name of its package.
* `Reference.elements` — the references in a list with commas.
* `Reference.components` — the full paths of the actions of a sequence.
-/

set_option autoImplicit false

namespace DeployPlan

namespace Reference

/-- A reference without blanks around it, behind the name of a package unless it has a slash. -/
def qualify (package reference : String) : String :=
  let reference := Text.trim reference
  if Text.has '/' reference then reference else package ++ "/" ++ reference

/-- The elements of a list with commas, without blanks around them. -/
def elements (actions : String) : List String := (Text.split ',' actions).map Text.trim

/-- The full path of a reference. -/
def component (ns package reference : String) : String :=
  "/" ++ Text.strip '/' ns ++ "/" ++ Text.stripStart '/' (qualify package reference)

/-- The full paths of the actions of a sequence, in order; empty elements do not count. -/
def components (ns package actions : String) : List String :=
  ((elements actions).filter fun e => !e.isEmpty).map (component ns package)

/-- The warnings about the empty elements of a list. -/
def warnings (actions : String) : List String :=
  ((elements actions).filter fun e => e.isEmpty).map fun _ =>
    "ignoring empty element in sequence list '" ++ actions ++ "'"

end Reference

end DeployPlan
