import DeployPlan.Manifest.Basic

/-!
# The packages of a document

Packages can be given in four places, and exactly one of them counts.

## Main definitions

* `DeployPlan.PackageSource` — the places.
* `Manifest.packageSource`, `Manifest.resolved` — the place that counts, and the packages there.
* `Manifest.projectName?` — the name of the project, if it has one.
-/

set_option autoImplicit false

namespace DeployPlan

/-- Where packages can be given, the place that counts before the others first. -/
inductive PackageSource where
  /-- A single package with a name. -/
  | single
  /-- Packages by name. -/
  | packages
  /-- A single package with a name, in the project. -/
  | projectSingle
  /-- Packages by name, in the project. -/
  | project
  deriving DecidableEq, Inhabited

namespace PackageSource

/-- Whether the place is kept only for older documents. -/
def isDeprecated : PackageSource → Bool
  | .single | .projectSingle => true
  | .packages | .project => false

end PackageSource

namespace Manifest

/-- A single package, if it has a name. -/
def named? (package : Option PackageSpec) : Option PackageSpec :=
  package.filter fun p => !p.name.isEmpty

/-- The place that counts and the packages there. -/
def resolve (m : Manifest) : PackageSource × KeyMap PackageSpec :=
  match named? m.package with
  | some p => (.single, .single p.name p)
  | none =>
    if !m.packages.isEmpty then (.packages, m.packages)
    else match m.project with
      | none => (.project, .empty)
      | some project => match named? project.package with
        | some p => (.projectSingle, .single p.name p)
        | none => (.project, project.packages)

/-- The place that counts. -/
def packageSource (m : Manifest) : PackageSource := m.resolve.1

/-- The packages that count, by name. -/
def resolved (m : Manifest) : KeyMap PackageSpec := m.resolve.2

/-- The name of the project, if it has one. -/
def projectName? (m : Manifest) : Option String :=
  (m.project.map (·.name)).filter fun n => !n.isEmpty

end Manifest

end DeployPlan
