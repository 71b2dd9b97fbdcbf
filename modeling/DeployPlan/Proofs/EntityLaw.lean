import DeployPlan.Proofs.Compose.Parts
import DeployPlan.Proofs.Override.Outcome

/-!
# Laws of entities

What is to be shown of all entities of a plan is often a matter of single entities: each becomes
what its declaration says, and an override changes it in one way.  A law says what is required of
the entities of each kind, under the names that they have in a plan.  If all that is composed
follows it, so does the plan of a document; and if it survives what a descriptor gives single
entities, it survives the override.

## Main definitions

* `DeployPlan.EntityLaw` — what is required of entities, each together with its declaration.
* `Plan.Obeys` — all entities of a plan are as a law requires.
* `EntityName`, `Manifest.GivesEntity`, `GivesValue` — what a descriptor gives the entity of a
  name, and its annotations.
* `EntityLaw.ofActions` — a law about actions alone.
* `Context.FollowsAt`, `EntityLaw.Survives` — what is composed over a tree follows a law, and what
  a descriptor gives single entities leaves it intact.

## Main results

* `Manifest.composePlan_obeys` — the plan of a document obeys the laws that its entities follow.
* `Plan.Obeys.overridden` — an override leaves laws intact that survive it.
-/

set_option autoImplicit false

namespace DeployPlan

/-! ## Laws -/

/-- What is required of the entities of a plan, of each together with its declaration.  Packages
and triggers have names in the plan, and actions and sequences in their packages. -/
structure EntityLaw where
  package : String → PackageSpec → Package → Prop
  action : String → String → ActionSpec → ActionRecord → Prop
  sequence : String → String → SequenceSpec → ActionRecord → Prop
  trigger : String → TriggerSpec → Trigger → Prop
  dependency : DependencySpec → DependencyRecord → Prop

/-- The triggers of a document, by the names that they get; of two with one name the later
counts. -/
def Manifest.declaredTriggers (m : Manifest) (vars : Variables) : KeyMap TriggerSpec :=
  .ofList ((m.resolved.entries.map fun e => e.2.triggers.entries).flatten.map fun e =>
    (Interpolation.expand vars e.1, e.2))

/-- A package, its actions and its sequences are as a law requires. -/
structure PackagePlan.Obeys (law : EntityLaw) (name : String) (spec : PackageSpec)
    (q : PackagePlan) : Prop where
  package : law.package name spec q.package
  actions : KeyMap.RelAt (law.action name) spec.actions q.actions
  sequences : KeyMap.RelAt (law.sequence name) spec.sequences q.sequences

/-- **The entities of a plan** are those that a document declares, and as a law requires. -/
structure Plan.Obeys (law : EntityLaw) (m : Manifest) (vars : Variables) (plan : Plan) :
    Prop where
  packages : KeyMap.RelAt (PackagePlan.Obeys law) m.resolved plan.packages
  triggers : KeyMap.RelAt law.trigger (m.declaredTriggers vars) plan.triggers
  dependencies : ∀ key d, plan.dependencies.get? key = some d →
    ∃ e ∈ m.resolved.entries, ∃ e' ∈ e.2.dependencies.entries, law.dependency e'.2 d

/-! ## Composing -/

/-- The entities that are composed in a context are as a law requires, if the sources of actions
are taken from a tree. -/
structure Context.FollowsAt [Host] (ctx : Context) (law : EntityLaw) (t : FileTree) :
    Prop where
  package : ∀ name spec p, (ctx.composePackage name spec).result = .ok p →
    law.package name spec p
  action : ∀ package name spec r,
    (ctx.composeAction (P := Host.packer package name) package name spec).resultAt t = .ok r →
    law.action package name spec r
  sequence : ∀ package name spec r, (ctx.composeSequence package name spec).result = .ok r →
    law.sequence package name spec r
  trigger : ∀ name spec x, (ctx.composeTrigger name spec).result = .ok x →
    law.trigger x.name spec x
  dependency : ∀ package name spec d, (ctx.composeDependency package name spec).result = .ok d →
    law.dependency spec d

/-- A law about actions alone. -/
def EntityLaw.ofActions (required : ActionSpec → ActionRecord → Prop) : EntityLaw where
  package _ _ _ := True
  action _ _ spec r := required spec r
  sequence _ _ _ _ := True
  trigger _ _ _ := True
  dependency _ _ := True

/-- It is followed if actions are composed as it requires. -/
theorem Context.followsAt_ofActions [Host] {ctx : Context} {t : FileTree}
    {required : ActionSpec → ActionRecord → Prop}
    (h : ∀ package name spec r,
      (ctx.composeAction (P := Host.packer package name) package name spec).resultAt t = .ok r →
      required spec r) : ctx.FollowsAt (.ofActions required) t where
  package _ _ _ _ := trivial
  action package name spec r hr := h package name spec r hr
  sequence _ _ _ _ _ := trivial
  trigger _ _ _ _ := trivial
  dependency _ _ _ _ _ := trivial

namespace Context

variable [Host] {ctx : Context} {law : EntityLaw} {name : String} {spec : PackageSpec}
  {t : FileTree}

/-- A package is composed as a law requires, with all its actions and sequences. -/
theorem FollowsAt.packagePlan {parts : PackageParts} (hlaw : ctx.FollowsAt law t)
    (h : ctx.Gives name spec t parts) : parts.packagePlan.Obeys law name spec := by
  obtain ⟨hpackage, hactions, hsequences, -⟩ := h
  rw [composeActions_eq_ok_iff] at hactions
  rw [composeSequences_eq_ok_iff] at hsequences
  refine ⟨hlaw.package _ _ _ hpackage, KeyMap.relAt_of_forall₂ ?_, KeyMap.relAt_of_forall₂ ?_⟩
  · rw [List.forall₂_map_right_iff]
    refine hactions.imp fun e _ hr => ?_
    have hname := (composeAction_placed (P := Host.packer name e.1) hr).1
    exact ⟨hname, hname ▸ hlaw.action _ _ _ _ hr⟩
  · rw [List.forall₂_map_right_iff]
    refine hsequences.imp fun _ _ hr => ?_
    have hname := (composeSequence_placed hr).1
    exact ⟨hname, hname ▸ hlaw.sequence _ _ _ _ hr⟩

/-- The triggers of a package are composed as a law requires, under the names that they get. -/
theorem FollowsAt.triggers {triggers : List Trigger} (hlaw : ctx.FollowsAt law t)
    (h : (ctx.composeTriggers spec).result = .ok triggers) :
    List.Forall₂ (fun e x => x.name = Interpolation.expand ctx.vars e.1 ∧ law.trigger x.name e.2 x)
      spec.triggers.entries triggers := by
  rw [composeTriggers, Report.result_mapM, Except.mapM_eq_ok_iff] at h
  exact h.imp fun e x hx => ⟨composeTrigger_name hx, hlaw.trigger _ _ _ hx⟩

/-- So are its dependencies. -/
theorem FollowsAt.dependencies {dependencies : KeyMap DependencyRecord}
    (hlaw : ctx.FollowsAt law t)
    (h : (ctx.composeDependencies name spec).result = .ok dependencies) (key : String)
    (d : DependencyRecord) (hd : dependencies.get? key = some d) :
    ∃ e ∈ spec.dependencies.entries, law.dependency e.2 d := by
  rw [composeDependencies, Report.result_bind, Report.result_mapM] at h
  obtain ⟨records, hrecords, h⟩ := Except.bind_eq_ok_iff.mp h
  cases h
  obtain ⟨e, hmem, he⟩ := Except.mem_of_mapM_eq_ok hrecords (KeyMap.mem_of_get?_ofList hd)
  obtain ⟨d', hd', he⟩ := Except.bind_eq_ok_iff.mp ((Report.result_bind _ _).symm.trans he)
  cases he
  exact ⟨e, hmem, hlaw.dependency _ _ _ _ hd'⟩

end Context

/-- Without a marker, a document has a context. -/
theorem Context.ofManifest_unmanaged {settings : Settings} (h : settings.managed = false)
    (vars : Variables) (m : Manifest) :
    ofManifest settings vars m = .ok ⟨settings, vars, m.path, none⟩ := by
  rw [ofManifest, h]
  rfl

/-- The context of a document has the given variables. -/
theorem Context.ofManifest_vars {settings : Settings} {vars : Variables} {m : Manifest}
    {ctx : Context} (h : ofManifest settings vars m = .ok ctx) : ctx.vars = vars := by
  rw [ofManifest] at h
  split at h
  · obtain ⟨marker, -, rfl⟩ := Except.map_eq_ok_iff.mp h
    rfl
  · cases h
    rfl

/-- And its path. -/
theorem Context.ofManifest_path {settings : Settings} {vars : Variables} {m : Manifest}
    {ctx : Context} (h : ofManifest settings vars m = .ok ctx) : ctx.path = m.path := by
  rw [ofManifest] at h
  split at h
  · obtain ⟨marker, -, rfl⟩ := Except.map_eq_ok_iff.mp h
    rfl
  · cases h
    rfl

/-- **The plan of a document** obeys each law that its entities follow over the tree.

**Proof sketch.** The plan is that of the parts of packages, and each part is what single entities
become.  Packages are kept under their names, and triggers under the names that they get; what
holds of the dependencies of each package holds of their union. -/
theorem Manifest.composePlan_obeys [Host] {m : Manifest} {settings : Settings}
    {vars : Variables} {t : FileTree} {plan : Plan} {law : EntityLaw}
    (h : (m.composePlan settings vars).resultAt t = .ok plan)
    (hlaw : ∀ ctx, Context.ofManifest settings vars m = .ok ctx → ctx.FollowsAt law t) :
    plan.Obeys law m vars := by
  obtain ⟨ctx, parts, hctx, hparts, rfl⟩ := composePlan_eq_ok_iff.mp h
  have hfollows := hlaw ctx hctx
  obtain rfl := Context.ofManifest_vars hctx
  constructor
  case packages =>
    refine KeyMap.relAt_of_forall₂ ?_
    rw [List.forall₂_map_right_iff]
    refine hparts.imp fun _ _ hx => ?_
    have hname := Context.composePackage_name hx.package
    exact ⟨hname, hname ▸ hfollows.packagePlan hx⟩
  case triggers =>
    refine KeyMap.relAt_ofList ?_
    rw [List.forall₂_map_left_iff, List.forall₂_map_right_iff]
    refine List.rel_flatten ?_
    rw [List.forall₂_map_left_iff, List.forall₂_map_right_iff]
    refine hparts.imp fun _ _ hx => ?_
    exact (hfollows.triggers hx.triggers).imp fun _ _ hx => ⟨hx.1.symm, hx.2⟩
  case dependencies =>
    refine KeyMap.all_foldl_union fun dependencies hmem key d hd => ?_
    obtain ⟨x, hx, rfl⟩ := List.mem_map.mp hmem
    obtain ⟨e, he, hx⟩ := exists_of_forall₂ hparts hx
    exact ⟨e, he, hfollows.dependencies hx.dependencies key d hd⟩

/-! ## Overriding -/

/-- The names that a descriptor has for entities. -/
inductive EntityName where
  | package (name : String)
  | action (package name : String)
  | trigger (name : String)

/-- What a descriptor gives the entity of a name: inputs, and values of annotations.  Each of its
packages can give something to a trigger. -/
inductive Manifest.GivesEntity (d : Manifest) :
    EntityName → KeyMap ParamSpec → KeyMap Yaml.Value → Prop
  | package {e : String × PackageSpec} (he : e ∈ d.resolved.entries) :
    GivesEntity d (.package e.1) e.2.inputs e.2.annotations
  | action {e : String × PackageSpec} (he : e ∈ d.resolved.entries) {name : String}
    {action : ActionSpec} (haction : e.2.actions.get? name = some action) :
    GivesEntity d (.action e.1 name) action.inputs action.annotations
  | trigger {e : String × PackageSpec} (he : e ∈ d.resolved.entries) {name : String}
    {trigger : TriggerSpec} (htrigger : e.2.triggers.get? name = some trigger) :
    GivesEntity d (.trigger name) trigger.inputs trigger.annotations

/-- What a descriptor gives an annotation of an entity. -/
def Manifest.GivesValue (d : Manifest) (entity : EntityName) (key : String) (value : Json) :
    Prop :=
  ∃ inputs given v, d.GivesEntity entity inputs given ∧ given.get? key = some v ∧
    v.toJson = value

open Override

/-- A law survives a descriptor: an entity to which the descriptor gives something is still as the
law requires. -/
structure EntityLaw.Survives (law : EntityLaw) (vars : Variables) (descriptor : Manifest) :
    Prop where
  package : ∀ name inputs given, descriptor.GivesEntity (.package name) inputs given →
    ∀ spec p, law.package name spec p →
      law.package name spec (overriddenEntity vars inputs given p)
  action : ∀ package name inputs given,
    descriptor.GivesEntity (.action package name) inputs given →
    ∀ spec r, law.action package name spec r →
      law.action package name spec (overriddenEntity vars inputs given r)
  trigger : ∀ name inputs given, descriptor.GivesEntity (.trigger name) inputs given →
    ∀ spec x, law.trigger name spec x →
      law.trigger name spec (overriddenEntity vars inputs given x)

section Overriding

variable {law : EntityLaw} {settings : Settings} {vars : Variables} {m descriptor : Manifest}

/-- The same for a package with its actions. -/
theorem EntityLaw.Survives.packagePlan (hlaw : law.Survives vars descriptor)
    {e : String × PackageSpec} (he : e ∈ descriptor.resolved.entries) {spec : PackageSpec}
    {q : PackagePlan} (h : q.Obeys law e.1 spec) :
    (overriddenPackagePlan vars e.2 q).Obeys law e.1 spec where
  package := hlaw.package _ _ _ (.package he) _ _ h.package
  actions := by
    refine h.actions.mapWithKey_right fun name action r hr => ?_
    split
    · rename_i given hgiven
      exact hlaw.action _ _ _ _ (.action he hgiven) _ _ hr
    · exact hr
  sequences := h.sequences

/-- The same for a trigger, which several packages may name. -/
theorem EntityLaw.Survives.overriddenTrigger (hlaw : law.Survives vars descriptor)
    {name : String} {spec : TriggerSpec} {x : Trigger} (h : law.trigger name spec x) :
    law.trigger name spec (overriddenTrigger vars descriptor.resolved.entries name x) := by
  have hgiven : ∀ trigger ∈ descriptor.resolved.entries.filterMap (·.2.triggers.get? name),
      descriptor.GivesEntity (.trigger name) trigger.inputs trigger.annotations := by
    intro trigger htrigger
    obtain ⟨e, he, hget⟩ := List.mem_filterMap.mp htrigger
    exact .trigger he hget
  rw [Override.overriddenTrigger]
  revert hgiven
  generalize descriptor.resolved.entries.filterMap (·.2.triggers.get? name) = triggers
  induction triggers generalizing x with
  | nil => exact fun _ => h
  | cons trigger triggers ih =>
    intro hgiven
    have hstep := hlaw.trigger _ _ _ (hgiven trigger List.mem_cons_self) _ _ h
    exact ih hstep fun y hy => hgiven y (List.mem_cons_of_mem _ hy)

/-- **An override leaves a law intact** that survives what the descriptor gives entities. -/
theorem Plan.Obeys.overridden {plan : Plan} (h : plan.Obeys law m vars)
    (hlaw : law.Survives vars descriptor) :
    (overridden settings vars descriptor plan).Obeys law m vars where
  packages := by
    refine h.packages.mapWithKey_right fun name spec q hq => ?_
    split
    · rename_i given hgiven
      have hreached := (reached_sublist settings descriptor.resolved.entries plan.packages).subset
      exact hlaw.packagePlan (hreached (Entries.mem_of_find? hgiven)) hq
    · exact hq
  triggers := h.triggers.mapWithKey_right fun _ _ _ hx => hlaw.overriddenTrigger hx
  dependencies := h.dependencies

end Overriding

end DeployPlan
