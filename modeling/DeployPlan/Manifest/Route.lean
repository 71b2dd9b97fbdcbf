import DeployPlan.Manifest.Basic
import DeployPlan.Text.Blank
import DeployPlan.Text.LetterCase

/-!
# Gateway routes

## Main definitions

* `DeployPlan.Route` — a route of a gateway to an action.
* `PackageSpec.leaves` — the declared routes of a package, as four keys and a method.
* `PackageSpec.routes` — the routes, or the first method that is none.
-/

set_option autoImplicit false

namespace DeployPlan

/-- A route of a gateway to an action. -/
structure Route where
  /-- The namespace of the route and of the action. -/
  «namespace» : String
  apiName : String
  basePath : String
  relativePath : String
  /-- The method at the gateway. -/
  method : String
  /-- The action, behind the name of its package. -/
  action : String
  /-- The namespace of the action. -/
  actionNamespace : String
  /-- The method at the action. -/
  backendMethod : String
  deriving DecidableEq, Inhabited

/-- A declared route. -/
structure RouteLeaf where
  api : String
  basePath : String
  relativePath : String
  action : String
  method : String
  deriving DecidableEq, Inhabited

/-- A method that is none. -/
structure UnknownMethod where
  api : String
  method : String
  deriving DecidableEq, Inhabited

namespace Route

/-- The methods that a route can have. -/
def methods : List String := ["GET", "POST", "PUT", "DELETE", "PATCH", "HEAD", "OPTIONS"]

/-- A method as it is written in a route. -/
def normalMethod (method : String) : String := Text.toUpper (Text.trim method)

/-- A path with a slash at its start. -/
def rooted (path : String) : String := if Text.startsWith "/" path then path else "/" ++ path

/-- The route of a declared route of a package. -/
def ofLeaf (package ns : String) (leaf : RouteLeaf) : Except UnknownMethod Route :=
  let method := normalMethod leaf.method
  if methods.contains method then
    .ok ⟨ns, leaf.api, rooted leaf.basePath, rooted leaf.relativePath, method,
      package ++ "/" ++ leaf.action, ns, method⟩
  else .error ⟨leaf.api, method⟩

end Route

namespace PackageSpec

/-- The declared routes of a package, in the order of their keys. -/
def leaves (spec : PackageSpec) : List RouteLeaf :=
  spec.apis.entries.flatMap fun (api, basePaths) =>
    basePaths.entries.flatMap fun (basePath, relativePaths) =>
      relativePaths.entries.flatMap fun (relativePath, actions) =>
        actions.entries.map fun (action, method) =>
          ⟨api, basePath, relativePath, action, method⟩

/-- The routes of a package with a given name, or the first method that is none. -/
def routes (spec : PackageSpec) (package ns : String) : Except UnknownMethod (List Route) :=
  spec.leaves.mapM (Route.ofLeaf package ns)

end PackageSpec

end DeployPlan
