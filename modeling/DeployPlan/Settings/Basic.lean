/-!
# Settings

## Main definitions

* `DeployPlan.Settings` — how a plan is composed.
-/

set_option autoImplicit false

namespace DeployPlan

/-- How a plan is composed. -/
structure Settings where
  /-- The namespace of sequence components, and of entities that do not declare one. -/
  «namespace» : String := "_"
  /-- Whether a declared runtime is kept although the source suggests another. -/
  strict : Bool := false
  /-- Whether entities are marked as owned by the project. -/
  managed : Bool := false
  /-- Whether a package of a deployment descriptor that the plan lacks is passed over, instead of
  ending the search. -/
  skipUnmatchedPackages : Bool := false
  deriving DecidableEq, Inhabited

end DeployPlan
