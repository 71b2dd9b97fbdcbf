import DeployPlan.Proofs.KeyValues
import Mathlib.Logic.Relation

/-!
# What an override can change

Of a plan, an override touches the parameters of packages, actions and triggers, into which it
merges inputs, and the values of their annotations.  All else stays: which entities there are,
what they are called and what they run, the keys of annotations and their order, and sequences,
rules, routes and dependencies altogether.  The relation between a plan and what an override may
leave of it is reflexive and transitive, so that it also holds after any number of overrides.

## Main definitions

* `DeployPlan.Entity` — what has parameters and annotations; packages, actions and triggers do.
* `Override.InputsMerged` — parameters, and the same after inputs were merged into them any
  number of times.
* `Entity.Revised`, `PackagePlan.Revised`, `Plan.Revised` — an entity, a package with its actions
  and a plan, before and after.

## Main results

* `Override.InputsMerged.distinct` — keys of parameters stay distinct.
* `Plan.Revised.refl`, `Plan.Revised.trans` — the laws of the relation.
-/

set_option autoImplicit false

namespace DeployPlan

open KeyValues

/-! ## Entities -/

/-- What has parameters and annotations. -/
class Entity (σ : Type) where
  parameters : σ → List KeyValue
  annotations : σ → List KeyValue
  /-- The same entity with other parameters and annotations. -/
  withLists : List KeyValue → List KeyValue → σ → σ
  parameters_withLists : ∀ ps as s, parameters (withLists ps as s) = ps
  annotations_withLists : ∀ ps as s, annotations (withLists ps as s) = as
  withLists_withLists : ∀ ps as ps' as' s,
    withLists ps as (withLists ps' as' s) = withLists ps as s
  withLists_self : ∀ s, withLists (parameters s) (annotations s) s = s

instance : Entity Package where
  parameters := Package.parameters
  annotations := Package.annotations
  withLists ps as p := { p with parameters := ps, annotations := as }
  parameters_withLists _ _ _ := rfl
  annotations_withLists _ _ _ := rfl
  withLists_withLists _ _ _ _ _ := rfl
  withLists_self _ := rfl

instance : Entity ActionRecord where
  parameters r := r.action.parameters
  annotations r := r.action.annotations
  withLists ps as r := { r with action := { r.action with parameters := ps, annotations := as } }
  parameters_withLists _ _ _ := rfl
  annotations_withLists _ _ _ := rfl
  withLists_withLists _ _ _ _ _ := rfl
  withLists_self _ := rfl

instance : Entity Trigger where
  parameters := Trigger.parameters
  annotations := Trigger.annotations
  withLists ps as t := { t with parameters := ps, annotations := as }
  parameters_withLists _ _ _ := rfl
  annotations_withLists _ _ _ := rfl
  withLists_withLists _ _ _ _ _ := rfl
  withLists_self _ := rfl

/-! ## Parameters -/

namespace Override

/-- Parameters, and the same after inputs were merged into them any number of times. -/
def InputsMerged : List KeyValue → List KeyValue → Prop :=
  Relation.ReflTransGen fun l l' => ∃ vars inputs, l' = mergeInputs vars inputs l

/-- What holds of parameters and stays when inputs are merged holds after any number of times. -/
theorem InputsMerged.preserves {P : List KeyValue → Prop}
    (hP : ∀ vars inputs l, P l → P (mergeInputs vars inputs l)) {l l' : List KeyValue}
    (h : InputsMerged l l') (hl : P l) : P l' := by
  induction h with
  | refl => exact hl
  | tail _ hstep ih =>
    obtain ⟨vars, inputs, rfl⟩ := hstep
    exact hP vars inputs _ ih

/-- Keys of parameters stay distinct. -/
theorem InputsMerged.distinct {l l' : List KeyValue} (h : InputsMerged l l')
    (hl : Distinct l) : Distinct l' :=
  h.preserves (fun vars inputs _ => distinct_mergeInputs vars inputs) hl

end Override

/-! ## Before and after -/

namespace Entity

variable {σ : Type} [Entity σ]

/-- An entity before and after: inputs were merged into its parameters, and values of its
annotations were replaced. -/
structure Revised (s s' : σ) : Prop where
  parameters : Override.InputsMerged (parameters s) (parameters s')
  annotations : keys (annotations s') = keys (annotations s)
  /-- All else stays. -/
  rest : s' = withLists (Entity.parameters s') (Entity.annotations s') s

/-- Nothing has to change in an entity. -/
theorem Revised.refl (s : σ) : Revised s s := ⟨.refl, rfl, (withLists_self s).symm⟩

/-- Two revisions in turn change no more than one can. -/
theorem Revised.trans (s t u : σ) (h : Revised s t) (h' : Revised t u) : Revised s u where
  parameters := Relation.ReflTransGen.trans h.parameters h'.parameters
  annotations := h'.annotations.trans h.annotations
  rest := by
    have hu := h'.rest
    rw [h.rest, withLists_withLists] at hu
    exact hu

/-- Merged inputs leave the annotations alone. -/
theorem revised_parameters {s : σ} {l : List KeyValue}
    (h : Override.InputsMerged (parameters s) l) : Revised s (withLists l (annotations s) s) := by
  refine ⟨?_, ?_, ?_⟩
  · rwa [parameters_withLists]
  · rw [annotations_withLists]
  · rw [parameters_withLists, annotations_withLists]

/-- Replaced values leave the parameters alone. -/
theorem revised_annotations {s : σ} {l : List KeyValue} (h : keys l = keys (annotations s)) :
    Revised s (withLists (parameters s) l s) := by
  refine ⟨?_, ?_, ?_⟩
  · rw [parameters_withLists]
    exact .refl
  · rwa [annotations_withLists]
  · rw [parameters_withLists, annotations_withLists]

end Entity

/-- A package with its actions before and after; sequences stay. -/
structure PackagePlan.Revised (q q' : PackagePlan) : Prop where
  package : Entity.Revised q.package q'.package
  actions : KeyMap.Rel Entity.Revised q.actions q'.actions
  sequences : q'.sequences = q.sequences

/-- Nothing has to change in a package. -/
theorem PackagePlan.Revised.refl (q : PackagePlan) : q.Revised q :=
  ⟨.refl _, KeyMap.Rel.refl Entity.Revised.refl _, rfl⟩

/-- The same holds of a package with its actions. -/
theorem PackagePlan.Revised.trans (p q r : PackagePlan) (h : p.Revised q) (h' : q.Revised r) :
    p.Revised r :=
  ⟨.trans _ _ _ h.package h'.package, KeyMap.Rel.trans Entity.Revised.trans h.actions h'.actions,
    h'.sequences.trans h.sequences⟩

/-- A plan before and after; rules, routes and dependencies stay. -/
structure Plan.Revised (p p' : Plan) : Prop where
  packages : KeyMap.Rel PackagePlan.Revised p.packages p'.packages
  triggers : KeyMap.Rel Entity.Revised p.triggers p'.triggers
  rules : p'.rules = p.rules
  routes : p'.routes = p.routes
  dependencies : p'.dependencies = p.dependencies

/-- Nothing has to change. -/
theorem Plan.Revised.refl (p : Plan) : p.Revised p :=
  ⟨KeyMap.Rel.refl PackagePlan.Revised.refl _, KeyMap.Rel.refl Entity.Revised.refl _,
    rfl, rfl, rfl⟩

/-- Two overrides in turn change no more than one can. -/
theorem Plan.Revised.trans (p q r : Plan) (h : p.Revised q) (h' : q.Revised r) : p.Revised r :=
  ⟨KeyMap.Rel.trans PackagePlan.Revised.trans h.packages h'.packages,
    KeyMap.Rel.trans Entity.Revised.trans h.triggers h'.triggers,
    h'.rules.trans h.rules, h'.routes.trans h.routes, h'.dependencies.trans h.dependencies⟩

end DeployPlan
