import DeployPlan.Plan.Basic

/-!
# Locations of dependencies

A dependency is a package that the platform provides, or one that a repository holds.

## Main definitions

* `DeployPlan.Location` — where a package is.
* `Location.ofText?` — the location that a text names.
-/

set_option autoImplicit false

namespace DeployPlan

/-- Where a package is. -/
structure Location where
  kind : DependencyKind
  /-- The whole location, in its full form. -/
  address : String
  /-- The address of the repository. -/
  baseRepo : Option String := none
  /-- The directory of the package in the repository. -/
  subFolder : Option String := none
  deriving DecidableEq, Inhabited

namespace Location

/-- The namespace of the packages that the platform provides. -/
def systemNamespace : String := "whisk.system"

/-- The host of repositories. -/
def host : String := "github.com"

/-- The schemes that an address can start with. -/
def schemes : List String := ["https://", "http://"]

/-- What follows the scheme of an address, if it has one. -/
def afterScheme? (address : String) : Option String :=
  schemes.findSome? fun scheme => Text.after? scheme address

/-- An address in a repository, without its scheme: what follows the host. -/
def repositoryPath? (address : String) : Option String :=
  (Text.after? host ((afterScheme? address).getD address)).bind (Text.after? "/")

/-- The location of a package of the platform. -/
def ofSystem (address : String) : Location :=
  ⟨.binding, if Text.startsWith "/" address then address else "/" ++ address, none, none⟩

/-- The location of a package in a repository: an owner, a repository and a directory in it. -/
def ofRepository? (address : String) : Option Location :=
  match (repositoryPath? address).map fun path =>
      (Text.split '/' path).filter fun segment => !segment.isEmpty with
  | some (owner :: repo :: folders) =>
    let address := if (afterScheme? address).isSome then address else "https://" ++ address
    some ⟨.remote, address, some ("https://" ++ host ++ "/" ++ owner ++ "/" ++ repo),
      if folders.isEmpty then none else some (Text.join "/" folders)⟩
  | _ => none

/-- The location that a text names; blanks around it do not count. -/
def ofText? (text : String) : Option Location :=
  let address := Text.trim text
  if Text.startsWith systemNamespace address || Text.startsWith ("/" ++ systemNamespace) address
  then some (ofSystem address)
  else ofRepository? address

end Location

end DeployPlan
