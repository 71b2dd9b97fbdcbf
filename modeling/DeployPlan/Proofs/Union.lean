import DeployPlan.Proofs.EntityLaw

/-!
# Documents that are put together

Packages are composed one by one, in the order of their names, and none of them sees another.  So
a document can be cut between two names: the plans of its parts, put together, are its plan.
Triggers, rules and dependencies are kept apart from their packages, and of two with one name or
key the later counts, as within one document.

## Main definitions

* `Manifest.ofPackages` — a document of packages and nothing else.
* `Plan.combine` — two plans put together.

## Main results

* `Manifest.composePlan_unmanaged` — without a marker, a plan depends on the packages and the path
  of a document.
* `Plan.ofParts_append` — the plan of the parts of some packages and of others.
* `Manifest.composePlan_union` — a document of packages and others behind them has the plans of
  both put together, or the first failure.
-/

set_option autoImplicit false

namespace DeployPlan

/-! ## Plans that are put together -/

namespace Plan

/-- A plan and another whose packages come behind: of two triggers, rules or dependencies with one
name or key that of the second stays. -/
def combine (p q : Plan) : Plan where
  packages := p.packages.union q.packages
  triggers := p.triggers.union q.triggers
  rules := p.rules.union q.rules
  routes := p.routes ++ q.routes
  dependencies := p.dependencies.union q.dependencies

/-- **The plan of the parts** of some packages and of others is that of both put together. -/
theorem ofParts_append (parts parts' : List PackageParts) :
    ofParts (parts ++ parts') = (ofParts parts).combine (ofParts parts') := by
  simp only [ofParts, combine, List.map_append, List.flatten_append, KeyMap.ofList_append,
    List.foldl_append]
  rw [KeyMap.foldl_union]

end Plan

/-! ## Documents -/

namespace Manifest

/-- The document of packages and nothing else, read from a path. -/
def ofPackages (path : String) (packages : KeyMap PackageSpec) : Manifest where
  packages := packages
  path := path

/-- Its packages are those that count. -/
@[simp] theorem resolved_ofPackages (path : String) (packages : KeyMap PackageSpec) :
    (ofPackages path packages).resolved = packages := by
  show (if !packages.isEmpty then (PackageSource.packages, packages) else (.project, .empty)).2 = _
  cases hempty : packages.isEmpty with
  | false => rfl
  | true => exact (KeyMap.eq_empty_of_isEmpty hempty).symm

/-- **Without a marker**, a plan depends on the packages and the path of a document. -/
theorem composePlan_unmanaged [Host] {settings : Settings} (h : settings.managed = false)
    (m : Manifest) (vars : Variables) (t : FileTree) :
    (m.composePlan settings vars).resultAt t =
      Plan.ofParts <$> m.resolved.entries.mapM fun e =>
        Context.partsAt ⟨settings, vars, m.path, none⟩ e.1 e.2 t := by
  rw [composePlan_resultAt, eachAt, Context.ofManifest_unmanaged h]
  rfl

/-- **A document of packages and others behind them** has the plans of both documents put together.
If the first has no plan, it fails in the same way; if only the second has none, as the second.
This is so whatever is drawn for the archives of directories; a directory is packed with the same
draws in either document.

**Proof sketch.** The entries of the map of all packages are those of the first and then of the
second.  They are composed in this order up to the first failure, each by itself, and the plan of
all parts is that of both lists of parts put together. -/
theorem composePlan_union [Host] {settings : Settings} (hmanaged : settings.managed = false)
    (vars : Variables) (path : String) (t : FileTree) {packages packages' : KeyMap PackageSpec}
    (hbehind : ∀ k ∈ packages.keys, ∀ k' ∈ packages'.keys, k < k') :
    ((ofPackages path (packages.union packages')).composePlan settings vars).resultAt t = do
      let plan ← ((ofPackages path packages).composePlan settings vars).resultAt t
      let plan' ← ((ofPackages path packages').composePlan settings vars).resultAt t
      return plan.combine plan' := by
  simp only [composePlan_unmanaged hmanaged, resolved_ofPackages, KeyMap.entries_union hbehind,
    List.mapM_append, map_bind, bind_map_left, map_pure, Plan.ofParts_append]
  rfl

attribute [local instance] oneHost

/-- A package with a trigger. -/
def cartPackages : KeyMap PackageSpec :=
  .single "cart"
    { actions := .single "pay" { runtime := "nodejs:8" }, triggers := .single "tick" {} }

/-- A package behind it with a trigger of the same name, which has a feed. -/
def shopPackages : KeyMap PackageSpec :=
  .single "shop" { triggers := .single "tick" { feed := "/whisk.system/alarms" } }

/-- Both are composed alone, and their plans are put together; the trigger with the feed stays. -/
theorem composePlan_union_shop :
    (∀ k ∈ cartPackages.keys, ∀ k' ∈ shopPackages.keys, k < k') ∧
    ∃ plan plan', ((ofPackages "" cartPackages).composePlan {} {}).resultAt default = .ok plan ∧
      ((ofPackages "" shopPackages).composePlan {} {}).resultAt default = .ok plan' ∧
      ((ofPackages "" (cartPackages.union shopPackages)).composePlan {} {}).resultAt default =
        .ok (plan.combine plan') ∧
      ∃ x, (plan.combine plan').triggers.get? "tick" = some x ∧
        KeyValues.keys x.annotations = ["feed"] := by
  have hbehind : ∀ k ∈ cartPackages.keys, ∀ k' ∈ shopPackages.keys, k < k' := by decide
  have hunmanaged : ({} : Settings).managed = false := rfl
  have hunion := composePlan_union hunmanaged {} "" default hbehind
  obtain ⟨plan, hplan⟩ := Except.exists_of_isOk
    (r := ((ofPackages "" cartPackages).composePlan {} {}).resultAt default) (by decide +kernel)
  obtain ⟨plan', hplan', hfeed⟩ := Except.exists_of_any
    (r := ((ofPackages "" shopPackages).composePlan {} {}).resultAt default)
    (p := fun plan => (plan.triggers.get? "tick").any fun x =>
      KeyValues.keys x.annotations == ["feed"]) (by decide +kernel)
  rw [hplan, hplan'] at hunion
  refine ⟨hbehind, plan, plan', hplan, hplan', hunion, ?_⟩
  obtain ⟨x, hx, hkeys⟩ := (Option.any_eq_true _ _).mp hfeed
  refine ⟨x, ?_, by simpa using hkeys⟩
  rw [Plan.combine, KeyMap.get?_union, hx]
  rfl

end Manifest

end DeployPlan
