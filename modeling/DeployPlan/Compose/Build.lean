import DeployPlan.Compose.Plan
import DeployPlan.Manifest.Decode
import DeployPlan.Override

/-!
# Plans from files

## Main definitions

* `DeployPlan.Manifest.load` — the document of a file.
* `DeployPlan.buildPlan` — the plan of a manifest, overridden by a deployment descriptor if one is
  given.
-/

set_option autoImplicit false

namespace DeployPlan

/-- The document of the file at a path. -/
def Manifest.load (path : String) : Compose Manifest := Compose.looking fun t =>
  match t.readText path with
  | .error fault => .fail (.unreadableDocument path fault)
  | .ok text => match Manifest.parse text with
    | .error e => .fail (.invalidDocument path e)
    | .ok m => pure { m with path := path }

/-- The plan that a revision leaves, if it does not fail. -/
def Plan.revised (plan : Plan) (revision : Revision Plan) : Report Plan :=
  let (plan, report) := revision plan
  report >>= fun _ => pure plan

/-- The plan of the manifest at a path, overridden by the descriptor at another. -/
def buildPlan [Host] (settings : Settings) (vars : Variables) (manifest : String)
    (deployment : Option String) : Compose Plan := do
  Report.log .info ("composing " ++ manifest)
  let m ← Manifest.load manifest
  let plan ← m.composePlan settings vars
  match deployment with
  | none => return plan
  | some path =>
    Report.log .info ("applying deployment " ++ path)
    let descriptor ← Manifest.load path
    plan.revised (Override.apply settings vars descriptor)

end DeployPlan
