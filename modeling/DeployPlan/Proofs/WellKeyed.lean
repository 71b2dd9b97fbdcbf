import DeployPlan.Proofs.Compose.Keys
import DeployPlan.Proofs.EntityLaw

/-!
# Keys in plans

Parameters and annotations are lists, but no key is in one of them twice; and the annotations that
the platform looks for have fixed places among the others.  This holds of the plan of a document,
and no override changes it, not even one that fails halfway.

## Main definitions

* `Entity.WellKeyed`, `PackagePlan.WellKeyed`, `Plan.WellKeyed` — keys are distinct, and the
  marker, feeds and web modes are where they belong.
* `EntityLaw.wellKeyed` — the same as a law of single entities.

## Main results

* `Plan.WellKeyed.revised` — what an override may change leaves a plan well keyed.
* `Manifest.composePlan_wellKeyed` — the plan of a document is well keyed.
* `Override.run_composePlan_wellKeyed` — it stays so, whatever overrides follow.
-/

set_option autoImplicit false

namespace DeployPlan

open KeyValues

/-! ## Places of keys -/

/-- The keys of an entity are distinct.  If entities are marked, the marker comes last of its
annotations, except for those that belong `behind` it. -/
structure Entity.WellKeyed {σ : Type} [Entity σ] (managed : Bool) (behind : List String)
    (s : σ) : Prop where
  parameters : Distinct (Entity.parameters s)
  annotations : Distinct (Entity.annotations s)
  marker : managed = true → markerKey :: behind <:+ keys (Entity.annotations s)

/-- The keys that belong behind the marker of an action. -/
def ActionSpec.webKeys (spec : ActionSpec) : List String :=
  if spec.webExport = "true" then WebMode.keys else []

/-- A package that was composed from its declaration, with well keyed entities. -/
structure PackagePlan.WellKeyed (managed : Bool) (spec : PackageSpec) (q : PackagePlan) :
    Prop where
  package : Entity.WellKeyed managed [] q.package
  actions : KeyMap.Rel (fun action r => Entity.WellKeyed managed action.webKeys r)
    spec.actions q.actions
  sequences : KeyMap.Rel (fun _ r => Entity.WellKeyed managed [] r) spec.sequences q.sequences

/-- A well keyed trigger; its feed, if it has one, comes first of its annotations. -/
structure Trigger.WellKeyed (managed : Bool) (spec : TriggerSpec) (x : Trigger) : Prop where
  lists : Entity.WellKeyed managed [] x
  feed : spec.feedSource ≠ "" → (keys x.annotations).head? = some Context.feedKey

/-- A plan that was composed from a document, with well keyed entities. -/
structure Plan.WellKeyed (m : Manifest) (settings : Settings) (vars : Variables) (plan : Plan) :
    Prop where
  packages : KeyMap.Rel (PackagePlan.WellKeyed settings.managed) m.resolved plan.packages
  triggers : KeyMap.Rel (Trigger.WellKeyed settings.managed) (m.declaredTriggers vars)
    plan.triggers
  dependencies : ∀ key d, plan.dependencies.get? key = some d →
    Distinct d.parameters ∧ Distinct d.annotations

/-! ## Overrides -/

/-- Merged inputs and replaced values leave keys where they belong. -/
theorem Entity.WellKeyed.revised {σ : Type} [Entity σ] {managed : Bool} {behind : List String}
    (s s' : σ) (h : WellKeyed managed behind s) (hs : Revised s s') :
    WellKeyed managed behind s' where
  parameters := hs.parameters.distinct h.parameters
  annotations := by
    rw [Distinct, hs.annotations]
    exact h.annotations
  marker hmanaged := hs.annotations ▸ h.marker hmanaged

/-- The same for a package with its actions. -/
theorem PackagePlan.WellKeyed.revised {managed : Bool} (spec : PackageSpec) (q q' : PackagePlan)
    (h : WellKeyed managed spec q) (hq : q.Revised q') : WellKeyed managed spec q' where
  package := h.package.revised _ _ hq.package
  actions := h.actions.trans (fun _ _ _ hr hr' => hr.revised _ _ hr') hq.actions
  sequences := hq.sequences ▸ h.sequences

/-- The same for a trigger, whose feed stays first. -/
theorem Trigger.WellKeyed.revised {managed : Bool} (spec : TriggerSpec) (x x' : Trigger)
    (h : WellKeyed managed spec x) (hx : Entity.Revised x x') : WellKeyed managed spec x' where
  lists := h.lists.revised _ _ hx
  feed hfeed := (congrArg List.head? hx.annotations).trans (h.feed hfeed)

/-- **What an override may change** leaves a plan well keyed. -/
theorem Plan.WellKeyed.revised {m : Manifest} {settings : Settings} {vars : Variables}
    {p p' : Plan} (h : p.WellKeyed m settings vars) (hp : p.Revised p') :
    p'.WellKeyed m settings vars where
  packages := h.packages.trans PackagePlan.WellKeyed.revised hp.packages
  triggers := h.triggers.trans Trigger.WellKeyed.revised hp.triggers
  dependencies := hp.dependencies ▸ h.dependencies

/-! ## Composed entities -/

namespace Context

variable {ctx : Context} {managed : Bool} {package name : String} {t : FileTree}

/-- Marked annotations end in the marker. -/
theorem wellKeyed_mark {σ : Type} [Entity σ] {s : σ} {annotations : List KeyValue}
    (hctx : ctx.MarksIf managed) (hparameters : Distinct (Entity.parameters s))
    (hs : Entity.annotations s = ctx.mark annotations) (hannotations : Distinct annotations) :
    Entity.WellKeyed managed [] s where
  parameters := hparameters
  annotations := by
    rw [hs]
    exact distinct_mark hctx hannotations
  marker hmanaged := by
    subst hmanaged
    rw [hs]
    exact suffix_keys_mark hctx annotations

/-- Packages are composed well keyed. -/
theorem composePackage_wellKeyed {spec : PackageSpec} {p : Package} (hctx : ctx.MarksIf managed)
    (h : (ctx.composePackage name spec).result = .ok p) : Entity.WellKeyed managed [] p := by
  rw [composePackage_result] at h
  obtain ⟨parameters, hparameters, rfl⟩ := Except.map_eq_ok_iff.mp h
  exact wellKeyed_mark hctx (distinct_resolveParams hparameters) rfl
    (distinct_resolvedAnnotations _ _)

/-- So are sequences. -/
theorem composeSequence_wellKeyed {spec : SequenceSpec} {r : ActionRecord}
    (hctx : ctx.MarksIf managed) (h : (ctx.composeSequence package name spec).result = .ok r) :
    Entity.WellKeyed managed [] r := by
  rw [composeSequence_result] at h
  cases h
  exact wellKeyed_mark hctx List.nodup_nil rfl (distinct_resolvedAnnotations _ _)

/-- So are triggers; a feed is put first and the marker last. -/
theorem composeTrigger_wellKeyed {spec : TriggerSpec} {x : Trigger} (hctx : ctx.MarksIf managed)
    (h : (ctx.composeTrigger name spec).result = .ok x) : x.WellKeyed managed spec := by
  rw [composeTrigger_result] at h
  obtain ⟨parameters, hparameters, rfl⟩ := Except.map_eq_ok_iff.mp h
  refine ⟨?_, fun hfeed => head?_keys_mark_withFeed hctx hfeed _⟩
  exact wellKeyed_mark hctx (distinct_resolveParams hparameters) rfl
    (distinct_withFeed _ (distinct_resolvedAnnotations _ _))

/-- The annotations of an action end in the marker and what belongs behind it. -/
theorem annotationsFor_wellKeyed (hctx : ctx.MarksIf managed) (spec : ActionSpec) :
    Distinct (ctx.annotationsFor spec) ∧
      (managed = true → markerKey :: spec.webKeys <:+ keys (ctx.annotationsFor spec)) := by
  -- the annotations of the web mode go behind the marker and have other keys
  have hmark := distinct_mark hctx (distinct_resolvedAnnotations ctx.vars spec.annotations)
  rw [annotationsFor, ActionSpec.webKeys]
  by_cases hweb : spec.webExport = "true"
  · rw [if_pos hweb]
    refine ⟨WebMode.distinct_annotate _ hmark, ?_⟩
    rintro rfl
    rw [if_pos hweb]
    exact WebMode.suffix_keys_annotate _ (suffix_keys_mark hctx _) (by decide)
  · rw [if_neg hweb]
    refine ⟨hmark, ?_⟩
    rintro rfl
    rw [if_neg hweb]
    exact suffix_keys_mark hctx _

/-- Actions are composed well keyed, those that are reached over the web included. -/
theorem composeAction_wellKeyed [P : Packer] {spec : ActionSpec} {r : ActionRecord}
    (hctx : ctx.MarksIf managed)
    (h : (ctx.composeAction package name spec).resultAt t = .ok r) :
    Entity.WellKeyed managed spec.webKeys r := by
  obtain ⟨loaded, kind, parameters, -, -, hparameters, -, rfl⟩ :=
    (composeAction_eq_ok_iff ctx).mp h
  obtain ⟨hdistinct, hmarker⟩ := annotationsFor_wellKeyed hctx spec
  exact ⟨distinct_resolveParams hparameters, hdistinct, hmarker⟩

/-- Keys of a dependency are distinct. -/
theorem composeDependency_distinct {spec : DependencySpec} {d : DependencyRecord}
    (h : (ctx.composeDependency package name spec).result = .ok d) :
    Distinct d.parameters ∧ Distinct d.annotations := by
  rw [composeDependency_result] at h
  cases hlocation : Location.ofText? spec.location with
  | none => rw [hlocation] at h; cases h
  | some location =>
    rw [hlocation] at h
    obtain ⟨parameters, hparameters, rfl⟩ := Except.map_eq_ok_iff.mp h
    exact ⟨distinct_resolveParams hparameters, distinct_resolvedAnnotations _ _⟩

end Context

/-! ## Composed plans -/

/-- Entities are well keyed, and keys of dependencies are distinct. -/
def EntityLaw.wellKeyed (managed : Bool) : EntityLaw where
  package _ _ p := Entity.WellKeyed managed [] p
  action _ _ spec r := Entity.WellKeyed managed spec.webKeys r
  sequence _ _ _ r := Entity.WellKeyed managed [] r
  trigger _ spec x := x.WellKeyed managed spec
  dependency _ d := Distinct d.parameters ∧ Distinct d.annotations

/-- What is composed in a context that marks entities is well keyed. -/
theorem Context.followsAt_wellKeyed [Host] {ctx : Context} {managed : Bool}
    (hctx : ctx.MarksIf managed) (t : FileTree) : ctx.FollowsAt (.wellKeyed managed) t where
  package _ _ _ := composePackage_wellKeyed hctx
  action package name _ _ := composeAction_wellKeyed (P := Host.packer package name) hctx
  sequence _ _ _ _ := composeSequence_wellKeyed hctx
  trigger _ _ _ := composeTrigger_wellKeyed hctx
  dependency _ _ _ _ := composeDependency_distinct

/-- **The plan of a document** is well keyed. -/
theorem Manifest.composePlan_wellKeyed [Host] {m : Manifest} {settings : Settings}
    {vars : Variables} {t : FileTree} {plan : Plan}
    (h : (m.composePlan settings vars).resultAt t = .ok plan) :
    plan.WellKeyed m settings vars := by
  have hobeys : plan.Obeys (.wellKeyed settings.managed) m vars :=
    composePlan_obeys h fun ctx hctx =>
      Context.followsAt_wellKeyed (Context.ofManifest_spec hctx).2 t
  refine ⟨hobeys.packages.rel fun _ _ _ hq => ⟨hq.package, hq.actions, hq.sequences⟩,
    hobeys.triggers, fun key d hd => ?_⟩
  obtain ⟨_, _, _, _, hdistinct⟩ := hobeys.dependencies key d hd
  exact hdistinct

/-- **Whatever overrides follow**, and whether they fail or not, the plan of a document stays well
keyed.

**Proof sketch.** An override merges inputs, which keeps keys of parameters distinct, and replaces
values of annotations, which keeps their keys; both hold of what it leaves when it stops
halfway. -/
theorem Override.run_composePlan_wellKeyed [Host] {m : Manifest} {settings : Settings}
    {vars : Variables} {t : FileTree} {plan : Plan}
    (h : (m.composePlan settings vars).resultAt t = .ok plan) (calls : List Call) :
    (run calls plan).WellKeyed m settings vars :=
  (Manifest.composePlan_wellKeyed h).revised (run_revised calls plan)

attribute [local instance] oneHost

/-- A document of a project, with an action that is reached over the web and a trigger with a
feed. -/
def Manifest.cartManifest : Manifest where
  project := some
    { name := "Shop"
      packages := .single "cart"
        { actions := .single "pay" { runtime := "nodejs:20", webExport := "true" }
          triggers := .single "tick"
            { source := "/whisk.system/alarms", annotations := .single "feed" (.str "none") } } }

/-- A descriptor that gives a trigger an input, and an action an annotation that it lacks. -/
def Manifest.cartDescriptor : Manifest where
  packages := .single "cart"
    { actions := .single "pay" { annotations := .single "owner" (.str "b") }
      triggers := .single "tick" { inputs := .single "n" (.literal (.int 1)) } }

/-- The plan stays well keyed, although the override fails at the action. -/
theorem Override.cartManifest_stays_wellKeyed :
    ∃ plan, (Manifest.cartManifest.composePlan { managed := true } {}).resultAt default =
        .ok plan ∧
      (run [⟨{}, {}, Manifest.cartDescriptor⟩] plan).WellKeyed Manifest.cartManifest
        { managed := true } {} := by
  obtain ⟨plan, hplan⟩ := Except.exists_of_isOk
    (r := (Manifest.cartManifest.composePlan { managed := true } {}).resultAt default)
    (by decide +kernel)
  exact ⟨plan, hplan, run_composePlan_wellKeyed hplan [⟨{}, {}, Manifest.cartDescriptor⟩]⟩

end DeployPlan
