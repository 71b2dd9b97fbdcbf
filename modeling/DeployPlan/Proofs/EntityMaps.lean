import DeployPlan.Proofs.Compose.Build

/-!
# Plans that differ entity by entity

A document can be composed in two ways, under two settings for instance.  If each entity becomes
in the second way what it becomes in the first, up to a change that depends only on the entity and
its name, then the plans differ by these changes and in nothing else; and if one way fails, so does
the other, with the same failure.  An override does not get in the way of changes that leave
parameters and annotations alone.

## Main definitions

* `DeployPlan.EntityMaps` — changes of packages, actions, sequences and triggers that keep names.
* `Plan.mapEntities` — a plan of which all entities are changed.
* `Manifest.action?` — an action that a document declares.
* `Context.Adjusts` — the entities of a document become the same in two contexts, up to changes.
* `Manifest.planIn` — the plan of a document in a context.
* `EntityMaps.LeavesLists` — changes that leave parameters and annotations alone.

## Main results

* `Manifest.planIn_mapEntities` — plans that are composed in two such contexts.
* `Plan.revised_mapEntities` — changes before an override are changes after it.
-/

set_option autoImplicit false

namespace DeployPlan

/-! ## Changes -/

/-- Changes of single entities that keep their names. -/
structure EntityMaps where
  package : Package → Package := fun p => p
  /-- The change of an action, by the names of its package and of the action. -/
  action : String → String → ActionRecord → ActionRecord := fun _ _ r => r
  sequence : ActionRecord → ActionRecord := fun r => r
  trigger : Trigger → Trigger := fun x => x
  package_name : ∀ p, (package p).name = p.name := by intros; rfl
  action_name : ∀ package name r, (action package name r).action.name = r.action.name := by
    intros; rfl
  sequence_name : ∀ r, (sequence r).action.name = r.action.name := by intros; rfl
  trigger_name : ∀ x, (trigger x).name = x.name := by intros; rfl

section Changes

variable (f : EntityMaps)

/-- The package of a name, with its actions and sequences, all changed. -/
def PackagePlan.mapEntities (name : String) (q : PackagePlan) : PackagePlan where
  package := f.package q.package
  actions := q.actions.mapWithKey (f.action name)
  sequences := q.sequences.mapValues f.sequence

/-- **A plan of which all entities are changed.**  Rules, routes and dependencies stay. -/
def Plan.mapEntities (plan : Plan) : Plan :=
  { plan with
    packages := plan.packages.mapWithKey (PackagePlan.mapEntities f)
    triggers := plan.triggers.mapValues f.trigger }

/-- The parts of a package, with all entities changed. -/
def PackageParts.mapEntities (parts : PackageParts) : PackageParts :=
  { parts with
    package := f.package parts.package
    actions := parts.actions.map fun r => f.action parts.package.name r.action.name r
    sequences := parts.sequences.map f.sequence
    triggers := parts.triggers.map f.trigger }

/-- Changed parts make a changed package. -/
theorem PackageParts.packagePlan_mapEntities (parts : PackageParts) :
    (parts.mapEntities f).packagePlan =
      parts.packagePlan.mapEntities f parts.package.name := by
  have hactions : Context.recordsByName (parts.mapEntities f).actions =
      (Context.recordsByName parts.actions).mapWithKey (f.action parts.package.name) := by
    simp [Context.recordsByName, mapEntities, KeyMap.mapWithKey_ofList, f.action_name,
      Function.comp_def]
  have hsequences : Context.recordsByName (parts.mapEntities f).sequences =
      (Context.recordsByName parts.sequences).mapValues f.sequence := by
    simp [Context.recordsByName, mapEntities, KeyMap.mapValues, KeyMap.mapWithKey_ofList,
      f.sequence_name, Function.comp_def]
  rw [packagePlan, hactions, hsequences]
  rfl

/-- Changed parts of all packages make a changed plan. -/
theorem Plan.ofParts_mapEntities (parts : List PackageParts) :
    Plan.ofParts (parts.map (PackageParts.mapEntities f)) = (Plan.ofParts parts).mapEntities f := by
  have hname : ∀ x : PackageParts, (x.mapEntities f).package.name = x.package.name :=
    fun x => f.package_name x.package
  have hpackages : (Plan.ofParts (parts.map (PackageParts.mapEntities f))).packages =
      (Plan.ofParts parts).packages.mapWithKey (PackagePlan.mapEntities f) := by
    simp [Plan.ofParts, KeyMap.mapWithKey_ofList, hname, Function.comp_def,
      PackageParts.packagePlan_mapEntities]
  have htriggers : (Plan.ofParts (parts.map (PackageParts.mapEntities f))).triggers =
      (Plan.ofParts parts).triggers.mapValues f.trigger := by
    have hflat : ((parts.map (PackageParts.mapEntities f)).map (·.triggers)).flatten =
        (parts.map (·.triggers)).flatten.map f.trigger := by
      rw [List.map_flatten, List.map_map, List.map_map]
      rfl
    rw [Plan.ofParts, hflat]
    simp [Plan.ofParts, KeyMap.mapValues, KeyMap.mapWithKey_ofList, f.trigger_name,
      Function.comp_def]
  have hrest : ∀ {β : Type} (part : PackageParts → β),
      (∀ x, part (PackageParts.mapEntities f x) = part x) →
      (parts.map (PackageParts.mapEntities f)).map part = parts.map part := by
    intro β part hpart
    rw [List.map_map]
    exact List.map_congr_left fun x _ => hpart x
  rw [Plan.mapEntities, ← hpackages, ← htriggers]
  simp only [Plan.ofParts, hrest (·.rules) fun _ => rfl, hrest (·.routes) fun _ => rfl,
    hrest (·.dependencies) fun _ => rfl]

/-- In a plan that does not change, no action does. -/
theorem Plan.action_eq_of_mapEntities_eq {f : EntityMaps} {plan : Plan}
    (h : plan.mapEntities f = plan) {package name : String} {q : PackagePlan} {r : ActionRecord}
    (hq : plan.packages.get? package = some q) (hr : q.actions.get? name = some r) :
    f.action package name r = r := by
  have hpackage : (plan.mapEntities f).packages.get? package = some q := by rw [h, hq]
  rw [mapEntities, KeyMap.get?_mapWithKey, hq] at hpackage
  have hsame : q.mapEntities f package = q := Option.some.inj hpackage
  have haction : (q.mapEntities f package).actions.get? name = some r := by rw [hsame, hr]
  rw [PackagePlan.mapEntities, KeyMap.get?_mapWithKey, hr] at haction
  exact Option.some.inj haction

end Changes

/-! ## Two ways to compose -/

/-- An action that a document declares. -/
def Manifest.action? (m : Manifest) (package name : String) : Option ActionSpec :=
  (m.resolved.get? package).bind fun spec => spec.actions.get? name

/-- The entities of a document become the same in two contexts, up to changes, and fail with the
same failures. -/
structure Context.Adjusts [Host] (f : EntityMaps) (m : Manifest) (t : FileTree)
    (ctx ctx' : Context) : Prop where
  package : ∀ name spec, (ctx'.composePackage name spec).result =
    f.package <$> (ctx.composePackage name spec).result
  action : ∀ package name spec, m.action? package name = some spec →
    (ctx'.composeAction (P := Host.packer package name) package name spec).resultAt t =
      f.action package name <$>
        (ctx.composeAction (P := Host.packer package name) package name spec).resultAt t
  sequence : ∀ package name spec, (ctx'.composeSequence package name spec).result =
    f.sequence <$> (ctx.composeSequence package name spec).result
  trigger : ∀ name spec, (ctx'.composeTrigger name spec).result =
    f.trigger <$> (ctx.composeTrigger name spec).result
  rule : ∀ package name spec, (ctx'.composeRule package name spec).result =
    (ctx.composeRule package name spec).result
  routes : ∀ name spec, (ctx'.composeRoutes name spec).result =
    (ctx.composeRoutes name spec).result
  dependencies : ∀ name spec, (ctx'.composeDependencies name spec).result =
    (ctx.composeDependencies name spec).result

/-- Results of a list that differ by a change make lists that differ by it. -/
theorem Except.mapM_eq_map_mapM {ε α β γ : Type} {g : β → γ} {r : α → Except ε β}
    {r' : α → Except ε γ} {l : List α} (h : ∀ a ∈ l, r' a = g <$> r a) :
    l.mapM r' = List.map g <$> l.mapM r := by
  induction l with
  | nil => rfl
  | cons a l ih =>
    have htail := ih fun b hb => h b (List.mem_cons_of_mem a hb)
    rw [List.mapM_cons, List.mapM_cons, h a List.mem_cons_self, htail]
    simp only [bind_map_left, map_bind, map_pure, List.map_cons]

namespace Context.Adjusts

variable [Host] {f : EntityMaps} {m : Manifest} {t : FileTree} {ctx ctx' : Context}
  (h : ctx.Adjusts f m t ctx')

include h

/-- The actions of a package differ by their changes. -/
theorem composeActions {package : String} {spec : PackageSpec}
    (hspec : m.resolved.get? package = some spec) :
    (ctx'.composeActions package spec).resultAt t =
      (List.map fun r => f.action package r.action.name r) <$>
        (ctx.composeActions package spec).resultAt t := by
  rw [Context.composeActions, Context.composeActions,
    Compose.resultAt_mapM fun e _ =>
      ctx'.composeAction_leavesTree (P := Host.packer package e.1) package e.1 e.2,
    Compose.resultAt_mapM fun e _ =>
      ctx.composeAction_leavesTree (P := Host.packer package e.1) package e.1 e.2]
  refine Except.mapM_eq_map_mapM fun e he => ?_
  obtain ⟨name, action⟩ := e
  have haction : m.action? package name = some action := by
    rw [Manifest.action?, hspec]
    exact KeyMap.mem_entries_iff.mp he
  have heq := h.action package name action haction
  cases hr : (ctx.composeAction (P := Host.packer package name) package name action).resultAt t
    with
  | error failure => rw [heq, hr]; rfl
  | ok r =>
    have hname := (composeAction_placed (P := Host.packer package name) hr).1
    rw [heq, hr, Except.map_ok, Except.map_ok, hname]

/-- The parts of a package differ by the changes of its entities. -/
theorem partsAt {name : String} {spec : PackageSpec}
    (hspec : m.resolved.get? name = some spec) :
    ctx'.partsAt name spec t = PackageParts.mapEntities f <$> ctx.partsAt name spec t := by
  have hsequences : (ctx'.composeSequences name spec).result =
      List.map f.sequence <$> (ctx.composeSequences name spec).result := by
    rw [composeSequences, composeSequences, Report.result_mapM, Report.result_mapM]
    exact Except.mapM_eq_map_mapM fun e _ => h.sequence name e.1 e.2
  have htriggers : (ctx'.composeTriggers spec).result =
      List.map f.trigger <$> (ctx.composeTriggers spec).result := by
    rw [composeTriggers, composeTriggers, Report.result_mapM, Report.result_mapM]
    exact Except.mapM_eq_map_mapM fun e _ => h.trigger e.1 e.2
  have hrules : (ctx'.composeRules name spec).result = (ctx.composeRules name spec).result := by
    rw [composeRules, composeRules, Report.result_mapM, Report.result_mapM]
    exact congrArg (spec.rules.entries.mapM ·) (funext fun e => h.rule name e.1 e.2)
  rw [Context.partsAt, Context.partsAt, h.package, h.composeActions hspec, hsequences, htriggers,
    hrules, h.routes, h.dependencies]
  -- the change of the actions needs the name of the package, which is told by its success
  cases hpackage : (ctx.composePackage name spec).result with
  | error failure => rfl
  | ok package =>
    obtain rfl := composePackage_name hpackage
    simp only [Except.map_ok, Except.ok_bind, bind_map_left, map_bind, map_pure]
    rfl

end Context.Adjusts

/-! ## Documents -/

namespace Manifest

/-- The plan of a document in a context over a tree. -/
def planIn [Host] (m : Manifest) (ctx : Context) (t : FileTree) : Except Failure Plan :=
  Plan.ofParts <$> m.resolved.entries.mapM fun e => ctx.partsAt e.1 e.2 t

/-- The plan of a document is its plan in its context. -/
theorem composePlan_eq_planIn [Host] (m : Manifest) (settings : Settings)
    (vars : Variables) (t : FileTree) :
    (m.composePlan settings vars).resultAt t =
      Context.ofManifest settings vars m >>= fun ctx => m.planIn ctx t := by
  rw [composePlan_resultAt, eachAt, map_bind]
  rfl

/-- **Plans in two contexts** differ by the changes of entities, if each entity does.

**Proof sketch.** Each part of each package differs by the changes, and a plan is put together
from the parts in a way that looks only at names, which the changes keep. -/
theorem planIn_mapEntities [Host] {m : Manifest} {f : EntityMaps} {t : FileTree}
    {ctx ctx' : Context} (h : ctx.Adjusts f m t ctx') :
    m.planIn ctx' t = Plan.mapEntities f <$> m.planIn ctx t := by
  have hparts : (m.resolved.entries.mapM fun e => ctx'.partsAt e.1 e.2 t) =
      List.map (PackageParts.mapEntities f) <$>
        m.resolved.entries.mapM fun e => ctx.partsAt e.1 e.2 t :=
    Except.mapM_eq_map_mapM fun e he => h.partsAt (KeyMap.mem_entries_iff.mp he)
  rw [planIn, planIn, hparts, Functor.map_map, Functor.map_map]
  simp only [Plan.ofParts_mapEntities]

end Manifest

/-! ## Overrides -/

/-- A change of an entity that leaves its parameters and annotations alone. -/
structure Entity.LeavesLists {σ : Type} [Entity σ] (g : σ → σ) : Prop where
  annotations : ∀ s, Entity.annotations (g s) = Entity.annotations s
  parameters : ∀ s, Entity.parameters (g s) = Entity.parameters s
  withLists : ∀ ps as s, g (Entity.withLists ps as s) = Entity.withLists ps as (g s)

/-- It is the same before and after an override of the entity. -/
theorem Entity.LeavesLists.overridden {σ : Type} [Entity σ] {g : σ → σ} (h : LeavesLists g)
    (vars : Variables) (inputs : KeyMap ParamSpec) (given : KeyMap Yaml.Value) (s : σ) :
    Override.overriddenEntity vars inputs given (g s) =
      g (Override.overriddenEntity vars inputs given s) := by
  rw [Override.overriddenEntity, Override.overriddenEntity, h.parameters, h.annotations,
    h.withLists]

/-- Changes that leave parameters and annotations alone. -/
structure EntityMaps.LeavesLists (f : EntityMaps) : Prop where
  package : Entity.LeavesLists f.package
  action : ∀ package name, Entity.LeavesLists (f.action package name)
  trigger : Entity.LeavesLists f.trigger

namespace Plan

open Override

variable {f : EntityMaps} (hf : f.LeavesLists) (settings : Settings) (vars : Variables)
  (descriptor : Manifest) (plan : Plan)

/-- Changes keep the names of packages. -/
theorem contains_mapEntities (name : String) :
    (plan.mapEntities f).packages.contains name = plan.packages.contains name :=
  KeyMap.contains_mapWithKey plan.packages _ name

include hf

/-- Changes leave alone what a descriptor addresses. -/
theorem addressed_mapEntities :
    addressed settings descriptor (plan.mapEntities f) = addressed settings descriptor plan := by
  have hreached := reached_congr settings descriptor.resolved.entries
    (fun name => plan.contains_mapEntities (f := f) name)
  have hpackages : ∀ specs, addressedPackages specs (plan.mapEntities f).packages =
      addressedPackages specs plan.packages := by
    intro specs
    refine List.flatMap_congr fun e _ => ?_
    show (KeyMap.get? (KeyMap.mapWithKey _ _) _).elim _ _ = _
    rw [KeyMap.get?_mapWithKey]
    cases plan.packages.get? e.1 with
    | none => rfl
    | some q => exact congrArg (fun l => [(e.2.annotations, l)]) (hf.package.annotations q.package)
  have hactions : ∀ specs, addressedActions specs (plan.mapEntities f).packages =
      addressedActions specs plan.packages := by
    intro specs
    refine List.flatMap_congr fun e _ => ?_
    show (KeyMap.get? (KeyMap.mapWithKey _ _) _).elim _ _ = _
    rw [KeyMap.get?_mapWithKey]
    cases plan.packages.get? e.1 with
    | none => rfl
    | some q =>
      refine List.flatMap_congr fun a _ => ?_
      show (KeyMap.get? (KeyMap.mapWithKey _ _) _).elim _ _ = _
      rw [KeyMap.get?_mapWithKey]
      cases q.actions.get? a.1 with
      | none => rfl
      | some r =>
        exact congrArg (fun l => [(a.2.annotations, l)]) ((hf.action e.1 a.1).annotations r)
  have htriggers : addressedTriggers descriptor.resolved.entries (plan.mapEntities f).triggers =
      addressedTriggers descriptor.resolved.entries plan.triggers := by
    refine List.flatMap_congr fun e _ => List.flatMap_congr fun x _ => ?_
    show (KeyMap.get? (KeyMap.mapValues _ _) _).elim _ _ = _
    rw [KeyMap.get?_mapValues]
    cases plan.triggers.get? x.1 with
    | none => rfl
    | some trigger =>
      exact congrArg (fun l => [(x.2.annotations, l)]) (hf.trigger.annotations trigger)
  simp only [addressed, hreached, hpackages, hactions, htriggers]

/-- Changes before an override are changes after it. -/
theorem overridden_mapEntities :
    overridden settings vars descriptor (plan.mapEntities f) =
      (overridden settings vars descriptor plan).mapEntities f := by
  have hpackages : (overridden settings vars descriptor (plan.mapEntities f)).packages =
      ((overridden settings vars descriptor plan).mapEntities f).packages := by
    simp only [overridden, mapEntities, reached_mapWithKey, KeyMap.mapWithKey_mapWithKey]
    refine KeyMap.mapWithKey_congr fun name q _ => ?_
    split
    · rename_i spec hspec
      rw [overriddenPackagePlan, overriddenPackagePlan, PackagePlan.mapEntities,
        PackagePlan.mapEntities, hf.package.overridden, KeyMap.mapWithKey_mapWithKey,
        KeyMap.mapWithKey_mapWithKey]
      congr 1
      refine KeyMap.mapWithKey_congr fun action r _ => ?_
      split
      · exact (hf.action name action).overridden vars _ _ r
      · rfl
    · rfl
  have htriggers : (overridden settings vars descriptor (plan.mapEntities f)).triggers =
      ((overridden settings vars descriptor plan).mapEntities f).triggers := by
    simp only [overridden, mapEntities, KeyMap.mapValues, KeyMap.mapWithKey_mapWithKey]
    refine KeyMap.mapWithKey_congr fun name x _ => ?_
    rw [overriddenTrigger, overriddenTrigger]
    exact List.foldl_hom f.trigger fun x trigger => hf.trigger.overridden vars _ _ x
  exact congrArg₂ (fun packages triggers => ({ plan with packages, triggers } : Plan))
    hpackages htriggers

omit hf in
/-- The result of an override: the overridden plan, unless there is an absent annotation. -/
theorem revised_apply_result :
    (plan.revised (apply settings vars descriptor)).result =
      (fun _ => overridden settings vars descriptor plan) <$>
        Report.firstOf (failuresAt descriptor.path (addressed settings descriptor plan)) := by
  have spec := apply_meets settings vars descriptor
  have hresult := spec.result_eq plan
  rw [← hresult]
  cases hr : (apply settings vars descriptor plan).2.result with
  | ok u =>
    exact revised_eq_ok_iff.mpr ⟨hr, spec.fst_eq_of_ok hr⟩
  | error failure =>
    rw [Plan.revised]
    rcases hp : apply settings vars descriptor plan with ⟨left, events, result⟩
    rw [hp] at hr
    obtain rfl : result = .error failure := hr
    rfl

/-- **Changes before an override are changes after it**, and it fails as it would without
them. -/
theorem revised_mapEntities :
    ((plan.mapEntities f).revised (apply settings vars descriptor)).result =
      Plan.mapEntities f <$> (plan.revised (apply settings vars descriptor)).result := by
  rw [revised_apply_result, revised_apply_result, addressed_mapEntities hf,
    overridden_mapEntities hf, Functor.map_map]

end Plan

end DeployPlan
