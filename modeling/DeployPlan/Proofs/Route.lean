import DeployPlan.Manifest.Route
import DeployPlan.Proofs.Compose.Result
import DeployPlan.Proofs.KeyMap
import DeployPlan.Proofs.Text.Pieces

/-!
# Routes, one for each declaration

The routes of a package are declared in a map of maps: a method stands behind the names of an API,
of two paths and of an action.  Each of these gets a route, in the order of the four names, until
the first whose method is none.

## Main definitions

* `KeyMap.placed` — what stands in the things of a map, each behind the keys that lead to it.
* `RouteLeaf.place` — the names that lead to a declared method.
* `PackageSpec.method?` — the method that is declared behind four names.
* `Route.Serves` — the route of a declaration.

## Main results

* `KeyMap.pairwise_placed` — what stands in a map is in the order of its places, level by level.
* `PackageSpec.mem_leaves_iff`, `pairwise_leaves` — each declaration is listed, in order.
* `PackageSpec.routes_leafByLeaf` — each gets its route, unless a method is none.
-/

set_option autoImplicit false

namespace DeployPlan

/-! ## Things in maps -/

namespace KeyMap

variable {α β : Type}

/-- What stands in the things of a map, each behind the key of its thing. -/
def placed (inner : α → List (List String × β)) (m : KeyMap α) : List (List String × β) :=
  m.entries.flatMap fun e => (inner e.2).map fun x => (e.1 :: x.1, x.2)

/-- What stands behind a key stands in the thing under that key. -/
theorem mem_placed_iff {inner : α → List (List String × β)} {m : KeyMap α} {k : String}
    {place : List String} {x : β} :
    (k :: place, x) ∈ placed inner m ↔ ∃ v, m.get? k = some v ∧ (place, x) ∈ inner v := by
  simp only [placed, List.mem_flatMap, List.mem_map, Prod.mk.injEq, List.cons.injEq, Prod.exists,
    mem_entries_iff]
  constructor
  · rintro ⟨k', v, hget, place', x', hmem, ⟨rfl, rfl⟩, rfl⟩
    exact ⟨v, hget, hmem⟩
  · rintro ⟨v, hget, hmem⟩
    exact ⟨k, v, hget, place, x, hmem, ⟨rfl, rfl⟩, rfl⟩

/-- **What stands in a map is in the order of its places**, if it is so in each of the things. -/
theorem pairwise_placed {inner : α → List (List String × β)}
    (h : ∀ v, (inner v).Pairwise fun x y => x.1 < y.1) (m : KeyMap α) :
    (placed inner m).Pairwise fun x y => x.1 < y.1 := by
  rw [placed, List.pairwise_flatMap]
  constructor
  · intro e _
    rw [List.pairwise_map]
    exact (h e.2).imp fun hlt => List.cons_lt_cons_iff.mpr (.inr ⟨rfl, hlt⟩)
  · refine m.sorted.imp fun hlt x hx y hy => ?_
    obtain ⟨x', -, rfl⟩ := List.mem_map.mp hx
    obtain ⟨y', -, rfl⟩ := List.mem_map.mp hy
    exact List.cons_lt_cons_iff.mpr (.inl hlt)

end KeyMap

/-! ## Declarations -/

/-- The names that lead to a declared method. -/
def RouteLeaf.place (leaf : RouteLeaf) : List String :=
  [leaf.api, leaf.basePath, leaf.relativePath, leaf.action]

namespace PackageSpec

/-- The method that is declared behind four names. -/
def method? (spec : PackageSpec) (api basePath relativePath action : String) : Option String := do
  let basePaths ← spec.apis.get? api
  let relativePaths ← basePaths.get? basePath
  let actions ← relativePaths.get? relativePath
  actions.get? action

/-- The declarations are what stands in the map of the APIs. -/
theorem map_leaves (spec : PackageSpec) :
    spec.leaves.map (fun leaf => (leaf.place, leaf.method)) =
      KeyMap.placed (KeyMap.placed (KeyMap.placed (KeyMap.placed fun method => [([], method)])))
        spec.apis := by
  simp only [leaves, KeyMap.placed, List.map_flatMap, List.map_map, List.map_cons, List.map_nil]
  simp only [List.map_eq_flatMap]
  rfl

/-- **Each declaration is listed.** -/
theorem mem_leaves_iff {spec : PackageSpec} {leaf : RouteLeaf} :
    leaf ∈ spec.leaves ↔
      spec.method? leaf.api leaf.basePath leaf.relativePath leaf.action = some leaf.method := by
  have hinjective : Function.Injective fun leaf : RouteLeaf => (leaf.place, leaf.method) := by
    rintro ⟨⟩ ⟨⟩ h
    simpa [RouteLeaf.place, and_assoc] using h
  rw [← List.mem_map_of_injective hinjective, map_leaves, RouteLeaf.place]
  simp only [KeyMap.mem_placed_iff, method?, Option.bind_eq_bind, Option.bind_eq_some_iff,
    List.mem_singleton, Prod.mk.injEq, true_and, exists_eq_right']

/-- **Declarations are listed in the order of their names.** -/
theorem pairwise_leaves (spec : PackageSpec) :
    spec.leaves.Pairwise fun a b => a.place < b.place := by
  have hplaced := spec.map_leaves ▸ KeyMap.pairwise_placed (KeyMap.pairwise_placed
    (KeyMap.pairwise_placed (KeyMap.pairwise_placed fun method : String =>
      List.pairwise_singleton _ (([] : List String), method)))) spec.apis
  rwa [List.pairwise_map] at hplaced

end PackageSpec

/-! ## Routes -/

namespace Route

/-- A path as it stands in a route: with a slash at its start, which is put there if it is
missing. -/
structure IsRooted (path rooted : String) : Prop where
  slash : Text.startsWith "/" rooted = true
  path_eq : rooted = path ∨ Text.startsWith "/" path = false ∧ rooted = "/" ++ path

/-- The route of a declaration. -/
structure Serves (package ns : String) (leaf : RouteLeaf) (route : Route) : Prop where
  namespace_eq : route.namespace = ns
  apiName_eq : route.apiName = leaf.api
  basePath : IsRooted leaf.basePath route.basePath
  relativePath : IsRooted leaf.relativePath route.relativePath
  method_eq : route.method = normalMethod leaf.method
  method_mem : route.method ∈ methods
  backendMethod_eq : route.backendMethod = route.method
  action_eq : route.action = package ++ "/" ++ leaf.action
  actionNamespace_eq : route.actionNamespace = ns

/-- There is one such path. -/
theorem isRooted_iff {path other : String} : IsRooted path other ↔ other = rooted path := by
  rw [rooted]
  constructor
  · rintro ⟨hslash, rfl | ⟨hpath, rfl⟩⟩
    · rw [if_pos hslash]
    · rw [hpath, if_neg Bool.false_ne_true]
  · rintro rfl
    split
    · next hpath => exact ⟨hpath, .inl rfl⟩
    · next hpath =>
      exact ⟨Text.startsWith_append "/" path, .inr ⟨Bool.eq_false_of_not_eq_true hpath, rfl⟩⟩

/-- **A declaration has one route**, if its method is one. -/
theorem ofLeaf_eq_ok_iff {package ns : String} {leaf : RouteLeaf} {route : Route} :
    ofLeaf package ns leaf = .ok route ↔ Serves package ns leaf route := by
  rw [ofLeaf]
  constructor
  · intro h
    split at h
    · next hmethod =>
      cases h
      exact ⟨rfl, rfl, isRooted_iff.mpr rfl, isRooted_iff.mpr rfl, rfl,
        List.contains_iff_mem.mp hmethod, rfl, rfl, rfl⟩
    · cases h
  · rintro ⟨rfl, hapi, hbase, hrelative, hmethod, hmem, hbackend, haction, hns⟩
    rw [isRooted_iff] at hbase hrelative
    rw [hmethod] at hmem
    obtain ⟨ns, api, basePath, relativePath, method, action, actionNs, backendMethod⟩ := route
    dsimp only at *
    subst hapi hbase hrelative hmethod hbackend haction hns
    rw [if_pos (List.contains_iff_mem.mpr hmem)]

/-- It has one exactly if its method is one. -/
theorem exists_ofLeaf_eq_ok_iff {package ns : String} {leaf : RouteLeaf} :
    (∃ route, ofLeaf package ns leaf = .ok route) ↔ normalMethod leaf.method ∈ methods := by
  constructor
  · rintro ⟨route, h⟩
    have hserves := ofLeaf_eq_ok_iff.mp h
    exact hserves.method_eq ▸ hserves.method_mem
  · intro h
    rw [ofLeaf, if_pos (List.contains_iff_mem.mpr h)]
    exact ⟨_, rfl⟩

/-- It has none exactly if its method is none, which is told then. -/
theorem ofLeaf_eq_error_iff {package ns : String} {leaf : RouteLeaf} {e : UnknownMethod} :
    ofLeaf package ns leaf = .error e ↔
      normalMethod leaf.method ∉ methods ∧ e = ⟨leaf.api, normalMethod leaf.method⟩ := by
  by_cases hmethod : normalMethod leaf.method ∈ methods
  · have hok : ∃ route, ofLeaf package ns leaf = .ok route := exists_ofLeaf_eq_ok_iff.mpr hmethod
    obtain ⟨route, hroute⟩ := hok
    simp [hroute, hmethod]
  · rw [ofLeaf, if_neg fun h => hmethod (List.contains_iff_mem.mp h)]
    simp [hmethod, eq_comm]

end Route

namespace PackageSpec

/-- What is listed before a declaration are those with lesser names. -/
theorem mem_front_iff {spec : PackageSpec} {front back : List RouteLeaf} {leaf other : RouteLeaf}
    (h : spec.leaves = front ++ leaf :: back) :
    other ∈ front ↔ other ∈ spec.leaves ∧ other.place < leaf.place := by
  have hsorted := spec.pairwise_leaves
  rw [h, List.pairwise_append, List.pairwise_cons] at hsorted
  obtain ⟨-, ⟨hback, -⟩, hfront⟩ := hsorted
  rw [h, List.mem_append, List.mem_cons]
  constructor
  · exact fun hmem => ⟨.inl hmem, hfront other hmem leaf List.mem_cons_self⟩
  · rintro ⟨hmem | rfl | hmem, hlt⟩
    · exact hmem
    · exact absurd hlt (List.lt_irrefl _)
    · exact absurd (hback other hmem) (List.lt_asymm hlt)

/-- There are no routes if the method of a declaration is none. -/
theorem exists_routes_eq_error_iff {spec : PackageSpec} {package ns : String} :
    (∃ e, spec.routes package ns = .error e) ↔
      ∃ leaf ∈ spec.leaves, Route.normalMethod leaf.method ∉ Route.methods := by
  have hok : (∃ served, spec.routes package ns = .ok served) ↔
      ∀ leaf ∈ spec.leaves, Route.normalMethod leaf.method ∈ Route.methods := by
    simp only [routes, Except.exists_mapM_eq_ok_iff, Route.exists_ofLeaf_eq_ok_iff]
  have hfails : (∃ e, spec.routes package ns = .error e) ↔
      ¬ ∃ served, spec.routes package ns = .ok served := by
    cases spec.routes package ns <;> simp
  simp only [hfails, hok, not_forall, exists_prop]

/-- **The routes of a package**, one for each of its declarations.  A method that is declared behind
four names is listed once, and the list is in the order of the names.  If the method of some
declaration, without the blanks around it and in capitals, is none, there are no routes, and the
first of these declarations is told by its API and its method.  Otherwise the declarations have one
route each, in their order.

**Proof sketch.** What stands in a map is in the order of its keys and of what stands behind each,
so that four levels of maps are listed in the order of the four names, and what is listed before a
declaration are those with lesser names. -/
theorem routes_leafByLeaf (spec : PackageSpec) (package ns : String) :
    (∀ leaf, leaf ∈ spec.leaves ↔
      spec.method? leaf.api leaf.basePath leaf.relativePath leaf.action = some leaf.method) ∧
    spec.leaves.Pairwise (fun a b => a.place < b.place) ∧
    ((∃ e, spec.routes package ns = .error e) ↔
      ∃ leaf ∈ spec.leaves, Route.normalMethod leaf.method ∉ Route.methods) ∧
    (∀ e, spec.routes package ns = .error e ↔
      ∃ leaf ∈ spec.leaves, Route.normalMethod leaf.method ∉ Route.methods ∧
        (∀ other ∈ spec.leaves, other.place < leaf.place →
          Route.normalMethod other.method ∈ Route.methods) ∧
        e = ⟨leaf.api, Route.normalMethod leaf.method⟩) ∧
    ∀ served, spec.routes package ns = .ok served ↔
      List.Forall₂ (Route.Serves package ns) spec.leaves served := by
  refine ⟨fun leaf => mem_leaves_iff, spec.pairwise_leaves, exists_routes_eq_error_iff,
    fun e => ?_, fun served => ?_⟩
  · rw [routes, Except.mapM_eq_error_iff]
    constructor
    · rintro ⟨front, leaf, back, hleaves, hfront, herror⟩
      obtain ⟨hmethod, rfl⟩ := Route.ofLeaf_eq_error_iff.mp herror
      refine ⟨leaf, hleaves ▸ by simp, hmethod, fun other hother hlt => ?_, rfl⟩
      exact Route.exists_ofLeaf_eq_ok_iff.mp
        (hfront other ((mem_front_iff hleaves).mpr ⟨hother, hlt⟩))
    · rintro ⟨leaf, hleaf, hmethod, hbefore, rfl⟩
      obtain ⟨front, back, hleaves⟩ := List.append_of_mem hleaf
      refine ⟨front, leaf, back, hleaves, fun other hother => ?_,
        Route.ofLeaf_eq_error_iff.mpr ⟨hmethod, rfl⟩⟩
      obtain ⟨hmem, hlt⟩ := (mem_front_iff hleaves).mp hother
      exact Route.exists_ofLeaf_eq_ok_iff.mpr (hbefore other hmem hlt)
  · rw [routes, Except.mapM_eq_ok_iff]
    simp only [Route.ofLeaf_eq_ok_iff]

end PackageSpec

end DeployPlan
