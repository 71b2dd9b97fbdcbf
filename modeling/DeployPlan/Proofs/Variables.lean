import DeployPlan.Proofs.Compose.Declared
import DeployPlan.Proofs.Compose.Keys
import DeployPlan.Proofs.Dependencies
import DeployPlan.Proofs.EntityLaw
import DeployPlan.Proofs.Override.Frame

/-!
# What variables can change

A document can be composed with one map of variables or another.  The plans differ in the values of
parameters and annotations, in namespaces that are declared, and in what triggers and rules are
called and refer to.  Nothing else depends on variables: not which entities there are, nor what
they run, nor which parameters and annotations they have.

## Main definitions

* `Entity.UpToValues` — an entity with other values.
* `PackagePlan.UpToVariables`, `Plan.UpToVariables` — what variables can change of a package and of
  a plan, and `Package.UpToVariables`, `ActionRecord.UpToVariables` and so on of single entities.
* `Context.withVars` — a context with other variables.

## Main results

* `Context.composePackage_upToVariables`, `composeAction_upToVariables` and so on — one for each
  kind of entity.
* `Manifest.composePlan_upToVariables` — the same for plans.
-/

set_option autoImplicit false

namespace DeployPlan

open KeyValues

/-! ## Entities with other values -/

instance : Entity DependencyRecord where
  parameters := DependencyRecord.parameters
  annotations := DependencyRecord.annotations
  withLists ps as d := { d with parameters := ps, annotations := as }
  parameters_withLists _ _ _ := rfl
  annotations_withLists _ _ _ := rfl
  withLists_withLists _ _ _ _ _ := rfl
  withLists_self _ := rfl

/-- An entity and the same with other values: parameters and annotations have the same keys in the
same order. -/
structure Entity.UpToValues {σ : Type} [Entity σ] (s s' : σ) : Prop where
  parameters : keys (Entity.parameters s') = keys (Entity.parameters s)
  annotations : keys (Entity.annotations s') = keys (Entity.annotations s)
  /-- All else is the same. -/
  rest : s' = withLists (Entity.parameters s') (Entity.annotations s') s

/-- A package with other variables: its namespace can be another if it is declared. -/
structure Package.UpToVariables (spec : PackageSpec) (p p' : Package) : Prop where
  values : Entity.UpToValues { p with «namespace» := p'.namespace } p'
  undeclared : spec.namespace = "" → p'.namespace = p.namespace

/-- An action with other variables. -/
structure ActionRecord.UpToVariables (spec : ActionSpec) (r r' : ActionRecord) : Prop where
  values : Entity.UpToValues
    { r with action := { r.action with «namespace» := r'.action.namespace } } r'
  undeclared : spec.namespace = "" → r'.action.namespace = r.action.namespace

/-- A package with its actions and sequences, which have no namespace of their own. -/
structure PackagePlan.UpToVariables (spec : PackageSpec) (q q' : PackagePlan) : Prop where
  package : q.package.UpToVariables spec q'.package
  actions : KeyMap.RelAt (fun name r r' =>
    ∃ action, spec.actions.get? name = some action ∧ r.UpToVariables action r') q.actions q'.actions
  sequences : KeyMap.Rel Entity.UpToValues q.sequences q'.sequences

/-- A trigger with other variables, and perhaps another name. -/
structure Trigger.UpToVariables (spec : TriggerSpec) (x x' : Trigger) : Prop where
  values : Entity.UpToValues { x with name := x'.name, «namespace» := x'.namespace } x'
  undeclared : spec.namespace = "" → x'.namespace = x.namespace

/-- A rule with other variables, and perhaps another name and other references. -/
structure Rule.UpToVariables (spec : RuleSpec) (x x' : Rule) : Prop where
  publish : x'.publish = x.publish
  undeclared : spec.namespace = "" → x'.namespace = x.namespace

/-- A route with other variables: its namespaces can be others if its package declares one. -/
structure Route.UpToVariables (spec : PackageSpec) (r r' : Route) : Prop where
  rest : r' = { r with «namespace» := r'.namespace, actionNamespace := r'.actionNamespace }
  undeclared : spec.namespace = "" → r' = r

/-- **The plan of a document with other variables.**  Triggers and rules are compared declaration by
declaration, before they are put under the names that they get. -/
structure Plan.UpToVariables (m : Manifest) (plan plan' : Plan) : Prop where
  packages : KeyMap.RelAt (fun name q q' =>
    ∃ spec, m.resolved.get? name = some spec ∧ q.UpToVariables spec q') plan.packages plan'.packages
  triggers : ∃ pairs : List (Trigger × Trigger),
    List.Forall₂ (fun d x => x.1.UpToVariables d.2 x.2) m.triggerDeclarations pairs ∧
    plan.triggers = .ofList (pairs.map fun x => (x.1.name, x.1)) ∧
    plan'.triggers = .ofList (pairs.map fun x => (x.2.name, x.2))
  rules : ∃ pairs : List (Rule × Rule),
    List.Forall₂ (fun d x => x.1.UpToVariables d.2.2 x.2) m.ruleDeclarations pairs ∧
    plan.rules = .ofList (pairs.map fun x => (x.1.name, x.1)) ∧
    plan'.rules = .ofList (pairs.map fun x => (x.2.name, x.2))
  routes : ∃ pairs : List (Route × Route),
    List.Forall₂ (fun d x => x.1.UpToVariables d.1.2 x.2) m.routeDeclarations pairs ∧
    plan.routes = pairs.map Prod.fst ∧ plan'.routes = pairs.map Prod.snd
  dependencies : KeyMap.Rel Entity.UpToValues plan.dependencies plan'.dependencies

/-! ## Contexts -/

namespace Context

/-- A context with other variables. -/
def withVars (ctx : Context) (vars : Variables) : Context := { ctx with vars }

/-- The context of a document with other variables. -/
theorem ofManifest_withVars (settings : Settings) (vars vars' : Variables) (m : Manifest) :
    ofManifest settings vars' m = (·.withVars vars') <$> ofManifest settings vars m := by
  rw [ofManifest, ofManifest]
  by_cases hmanaged : settings.managed = true
  · rw [if_pos hmanaged, if_pos hmanaged]
    cases m.marker <;> rfl
  · rw [if_neg hmanaged, if_neg hmanaged]
    rfl

variable (ctx : Context) (vars : Variables)

/-- A namespace that is not declared is that of the settings. -/
theorem namespaceFor_withVars {declared : String} (h : declared = "") :
    (ctx.withVars vars).namespaceFor declared = ctx.namespaceFor declared := by
  subst h
  rfl

/-! ## Keys -/

/-- Annotations have the same keys, whatever the variables. -/
theorem keys_annotations (annotations : KeyMap Yaml.Value) :
    keys (resolvedAnnotations vars annotations) =
      keys (resolvedAnnotations ctx.vars annotations) := by
  rw [keys_resolvedAnnotations, keys_resolvedAnnotations]

/-- They still have when they are marked, in the same way. -/
theorem keys_mark_congr {list list' : List KeyValue} (h : keys list' = keys list) :
    keys ((ctx.withVars vars).mark list') = keys (ctx.mark list) := by
  rw [mark, mark]
  cases hmarker : ctx.marker with
  | none => simpa [withVars, hmarker] using h
  | some marker => simp [withVars, hmarker, keys_remove, h]

/-- And when a feed is named. -/
theorem keys_withFeed_congr (feed : String) {list list' : List KeyValue}
    (h : keys list' = keys list) : keys (withFeed feed list') = keys (withFeed feed list) := by
  rw [withFeed, withFeed]
  split
  · exact h
  · rw [keys_cons, keys_cons, keys_remove, keys_remove, h]

/-- The annotations of an action have the same keys. -/
theorem keys_annotationsFor (spec : ActionSpec) :
    keys ((ctx.withVars vars).annotationsFor spec) = keys (ctx.annotationsFor spec) := by
  have hmark := ctx.keys_mark_congr vars (ctx.keys_annotations vars spec.annotations)
  rw [annotationsFor, annotationsFor]
  by_cases hweb : spec.webExport = "true"
  · rw [if_pos hweb, if_pos hweb, WebMode.keys_annotate, WebMode.keys_annotate]
    exact congrArg (fun l => l.filter (fun key => !WebMode.keys.contains key) ++ WebMode.keys) hmark
  · rw [if_neg hweb, if_neg hweb]
    exact hmark

variable {ctx vars}

/-- Parameters have the same keys, whatever the variables. -/
theorem keys_parameters {inputs : KeyMap ParamSpec} {list list' : List KeyValue}
    (h : (ctx.parameters inputs).result = .ok list)
    (h' : ((ctx.withVars vars).parameters inputs).result = .ok list') : keys list' = keys list :=
  (keys_resolveParams h').trans (keys_resolveParams h).symm

/-! ## Single entities -/

variable {package name : String} {t : FileTree}

/-- **A package** with other variables. -/
theorem composePackage_upToVariables {spec : PackageSpec} {p p' : Package}
    (h : (ctx.composePackage name spec).result = .ok p)
    (h' : ((ctx.withVars vars).composePackage name spec).result = .ok p') :
    p.UpToVariables spec p' := by
  rw [composePackage_result] at h h'
  obtain ⟨list, hlist, rfl⟩ := Except.map_eq_ok_iff.mp h
  obtain ⟨list', hlist', rfl⟩ := Except.map_eq_ok_iff.mp h'
  have hkeys := ctx.keys_mark_congr vars (ctx.keys_annotations vars spec.annotations)
  exact ⟨⟨keys_parameters hlist hlist', hkeys, rfl⟩, ctx.namespaceFor_withVars vars⟩

/-- **An action** with other variables: it has the same source and the same kind of runtime.  -/
theorem composeAction_upToVariables [P : Packer] {spec : ActionSpec} {r r' : ActionRecord}
    (h : (ctx.composeAction package name spec).resultAt t = .ok r)
    (h' : ((ctx.withVars vars).composeAction package name spec).resultAt t = .ok r') :
    r.UpToVariables spec r' := by
  obtain ⟨loaded, kind, list, hloaded, hkind, hlist, -, rfl⟩ := (composeAction_eq_ok_iff _).mp h
  obtain ⟨loaded', kind', list', hloaded', hkind', hlist', -, rfl⟩ :=
    (composeAction_eq_ok_iff _).mp h'
  obtain rfl : loaded' = loaded := Except.ok.inj (hloaded'.symm.trans hloaded)
  obtain rfl : kind' = kind := Except.ok.inj (hkind'.symm.trans hkind)
  exact ⟨⟨keys_parameters hlist hlist', ctx.keys_annotationsFor vars spec, rfl⟩,
    ctx.namespaceFor_withVars vars⟩

/-- **A sequence** with other variables. -/
theorem composeSequence_upToValues {spec : SequenceSpec} {r r' : ActionRecord}
    (h : (ctx.composeSequence package name spec).result = .ok r)
    (h' : ((ctx.withVars vars).composeSequence package name spec).result = .ok r') :
    Entity.UpToValues r r' := by
  rw [composeSequence_result] at h h'
  cases h
  cases h'
  have hkeys := ctx.keys_mark_congr vars (ctx.keys_annotations vars spec.annotations)
  exact ⟨rfl, hkeys, rfl⟩

/-- **A trigger** with other variables. -/
theorem composeTrigger_upToVariables {spec : TriggerSpec} {x x' : Trigger}
    (h : (ctx.composeTrigger name spec).result = .ok x)
    (h' : ((ctx.withVars vars).composeTrigger name spec).result = .ok x') :
    x.UpToVariables spec x' := by
  rw [composeTrigger_result] at h h'
  obtain ⟨list, hlist, rfl⟩ := Except.map_eq_ok_iff.mp h
  obtain ⟨list', hlist', rfl⟩ := Except.map_eq_ok_iff.mp h'
  have hkeys := ctx.keys_mark_congr vars
    (keys_withFeed_congr spec.feedSource (ctx.keys_annotations vars spec.annotations))
  exact ⟨⟨keys_parameters hlist hlist', hkeys, rfl⟩, ctx.namespaceFor_withVars vars⟩

/-- **A rule** with other variables. -/
theorem composeRule_upToVariables {spec : RuleSpec} {x x' : Rule}
    (h : (ctx.composeRule package name spec).result = .ok x)
    (h' : ((ctx.withVars vars).composeRule package name spec).result = .ok x') :
    x.UpToVariables spec x' := by
  rw [composeRule_result] at h h'
  obtain rfl := Except.ok.inj h
  obtain rfl := Except.ok.inj h'
  exact ⟨rfl, ctx.namespaceFor_withVars vars⟩

/-- **A route** with other variables. -/
theorem ofLeaf_upToVariables {spec : PackageSpec} {leaf : RouteLeaf} {r r' : Route}
    (h : Route.ofLeaf name (ctx.namespaceFor spec.namespace) leaf = .ok r)
    (h' : Route.ofLeaf name ((ctx.withVars vars).namespaceFor spec.namespace) leaf = .ok r') :
    r.UpToVariables spec r' := by
  constructor
  case rest =>
    rw [Route.ofLeaf] at h h'
    split at h
    case isFalse => cases h
    case isTrue hmethod =>
      rw [if_pos hmethod] at h'
      cases h
      cases h'
      rfl
  case undeclared =>
    intro hundeclared
    rw [ctx.namespaceFor_withVars vars hundeclared] at h'
    exact Except.ok.inj (h'.symm.trans h)

/-- **A dependency** with other variables. -/
theorem composeDependency_upToValues {spec : DependencySpec} {d d' : DependencyRecord}
    (h : (ctx.composeDependency package name spec).result = .ok d)
    (h' : ((ctx.withVars vars).composeDependency package name spec).result = .ok d') :
    Entity.UpToValues d d' := by
  rw [composeDependency_result] at h h'
  split at h
  case h_1 => cases h
  case h_2 location hlocation =>
    rw [hlocation] at h'
    obtain ⟨list, hlist, rfl⟩ := Except.map_eq_ok_iff.mp h
    obtain ⟨list', hlist', rfl⟩ := Except.map_eq_ok_iff.mp h'
    exact ⟨keys_parameters hlist hlist', ctx.keys_annotations vars spec.annotations, rfl⟩

end Context

/-! ## Plans -/

/-- Packages, actions and sequences are what is composed in a context over a tree. -/
def EntityLaw.composed [Host] (ctx : Context) (t : FileTree) : EntityLaw where
  package name spec p := (ctx.composePackage name spec).result = .ok p
  action package name spec r :=
    (ctx.composeAction (P := Host.packer package name) package name spec).resultAt t = .ok r
  sequence package name spec r := (ctx.composeSequence package name spec).result = .ok r
  trigger _ _ _ := True
  dependency _ _ := True

/-- A context follows the law of what is composed in it. -/
theorem Context.followsAt_composed [Host] (ctx : Context) (t : FileTree) :
    ctx.FollowsAt (.composed ctx t) t where
  package _ _ _ h := h
  action _ _ _ _ h := h
  sequence _ _ _ _ h := h
  trigger _ _ _ _ := trivial
  dependency _ _ _ _ _ := trivial

/-- So does the plan of a document. -/
theorem Manifest.composePlan_composed [Host] {m : Manifest} {settings : Settings}
    {vars : Variables} {t : FileTree} {ctx : Context} {plan : Plan}
    (hctx : Context.ofManifest settings vars m = .ok ctx)
    (h : (m.composePlan settings vars).resultAt t = .ok plan) :
    plan.Obeys (.composed ctx t) m vars :=
  composePlan_obeys h fun other hother =>
    Except.ok.inj (hother.symm.trans hctx) ▸ other.followsAt_composed t

/-- **A package** with its actions and sequences, with other variables. -/
theorem PackagePlan.Obeys.upToVariables [Host] {ctx : Context} {vars : Variables}
    {t : FileTree} {name : String} {spec : PackageSpec} {q q' : PackagePlan}
    (h : q.Obeys (.composed ctx t) name spec)
    (h' : q'.Obeys (.composed (ctx.withVars vars) t) name spec) : q.UpToVariables spec q' where
  package := Context.composePackage_upToVariables h.package h'.package
  actions := by
    refine (h.actions.both h'.actions).imp ?_
    rintro key r r' ⟨action, haction, hr, hr'⟩
    exact ⟨action, haction,
      Context.composeAction_upToVariables (P := Host.packer name key) hr hr'⟩
  sequences := by
    refine (h.sequences.both h'.sequences).rel ?_
    rintro name r r' ⟨sequence, -, hr, hr'⟩
    exact Context.composeSequence_upToValues hr hr'

/-- Records of the same dependencies with other variables make maps with the same keys. -/
theorem rel_dependencies_of_records {ctx : Context} {vars : Variables}
    {declarations : List DependencyDeclaration}
    {records records' : List (String × DependencyRecord)}
    (h : List.Forall₂ (fun d e => e.1 = d.key ∧ ctx.Represents d e.2) declarations records)
    (h' : List.Forall₂ (fun d e => e.1 = d.key ∧ (ctx.withVars vars).Represents d e.2)
      declarations records') :
    KeyMap.Rel Entity.UpToValues (.ofList records) (.ofList records') := by
  obtain ⟨pairs, hpairs, rfl, rfl⟩ := exists_pairs_of_forall₂ h h'
  refine KeyMap.relAt_ofList ?_
  rw [List.forall₂_map_left_iff, List.forall₂_map_right_iff, List.forall₂_same]
  intro x hx
  obtain ⟨d, -, ⟨hkey, hd⟩, hkey', hd'⟩ := exists_of_forall₂ hpairs hx
  exact ⟨hkey.trans hkey'.symm, Context.composeDependency_upToValues hd.composed hd'.composed⟩

/-- **The plan of a document with other variables** is the same up to what variables can change:
values of parameters and annotations, declared namespaces, and what triggers and rules are called
and refer to.  This is so whatever is drawn for the archives of directories, if both plans are
composed with the same draws.

**Proof sketch.** Both plans are composed from the same declarations, in contexts that differ in
variables only.  The source of an action, its kind of runtime and all that is not written out in
the plan do not look at variables; and whether a parameter or an annotation is there depends on its
declaration alone. -/
theorem Manifest.composePlan_upToVariables [Host] {m : Manifest} {settings : Settings}
    {vars vars' : Variables} {t : FileTree} {plan plan' : Plan}
    (h : (m.composePlan settings vars).resultAt t = .ok plan)
    (h' : (m.composePlan settings vars').resultAt t = .ok plan') :
    plan.UpToVariables m plan' := by
  obtain ⟨ctx, parts, hctx, hparts, hplan⟩ := composePlan_eq_ok_iff.mp h
  obtain ⟨ctx', parts', hctx', hparts', hplan'⟩ := composePlan_eq_ok_iff.mp h'
  obtain rfl : ctx.withVars vars' = ctx' := by
    rw [Context.ofManifest_withVars settings vars, hctx] at hctx'
    exact Except.ok.inj hctx'
  have hobeys := composePlan_composed hctx h
  have hobeys' := composePlan_composed hctx' h'
  subst hplan hplan'
  constructor
  case packages =>
    refine (hobeys.packages.both hobeys'.packages).imp ?_
    rintro name q q' ⟨spec, hspec, hq, hq'⟩
    exact ⟨spec, hspec, hq.upToVariables hq'⟩
  case triggers =>
    obtain ⟨pairs, hpairs, hfst, hsnd⟩ :=
      exists_pairs_of_forall₂ (Context.forall₂_triggers hparts) (Context.forall₂_triggers hparts')
    refine ⟨pairs, hpairs.imp fun d x hx => Context.composeTrigger_upToVariables hx.1 hx.2, ?_, ?_⟩
    · rw [Plan.ofParts, hfst, List.map_map]
      rfl
    · rw [Plan.ofParts, hsnd, List.map_map]
      rfl
  case rules =>
    obtain ⟨pairs, hpairs, hfst, hsnd⟩ :=
      exists_pairs_of_forall₂ (Context.forall₂_rules hparts) (Context.forall₂_rules hparts')
    refine ⟨pairs, hpairs.imp fun d x hx => Context.composeRule_upToVariables hx.1 hx.2, ?_, ?_⟩
    · rw [Plan.ofParts, hfst, List.map_map]
      rfl
    · rw [Plan.ofParts, hsnd, List.map_map]
      rfl
  case routes =>
    obtain ⟨pairs, hpairs, hfst, hsnd⟩ :=
      exists_pairs_of_forall₂ (Context.forall₂_routes hparts) (Context.forall₂_routes hparts')
    exact ⟨pairs, hpairs.imp fun d x hx => Context.ofLeaf_upToVariables hx.1 hx.2, hfst, hsnd⟩
  case dependencies =>
    obtain ⟨records, hrecords, hwritten⟩ := Context.exists_records_of_parts hparts
    obtain ⟨records', hrecords', hwritten'⟩ := Context.exists_records_of_parts hparts'
    rw [Plan.ofParts, hwritten .empty, Plan.ofParts, hwritten' .empty]
    exact rel_dependencies_of_records hrecords hrecords'

attribute [local instance] oneHost

/-- A document that refers to variables wherever it can. -/
def Manifest.regionManifest : Manifest where
  packages := .single "shop"
    { «namespace» := "$OWNER"
      inputs := .single "region" (.literal (.str "$REGION"))
      actions := .single "pay" {
        runtime := "nodejs:8"
        inputs := .single "retries" (.declared {
          type := some "integer"
          value := some (.str "$RETRIES") }) }
      sequences := .single "buy" { actions := "pay", annotations := .single "in" (.str "$REGION") }
      triggers := .single "tick-$REGION" { feed := "/whisk.system/alarms" }
      rules := .single "hourly" { trigger := "tick-$REGION", action := "pay" }
      dependencies := .single "util" {
        location := "/whisk.system/utils"
        inputs := .single "region" (.literal (.str "$REGION")) } }

/-- What the variables stand for in one region or another. -/
def regionVariables (region retries : String) : Variables where
  own := .ofList [("OWNER", region ++ "-owner"), ("REGION", region), ("RETRIES", retries)]

/-- Plans for two regions are the same up to variables; the triggers have other names. -/
theorem Manifest.composePlan_upToVariables_region :
    ∃ plan plan',
      (regionManifest.composePlan {} (regionVariables "eu" "1")).resultAt default = .ok plan ∧
      (regionManifest.composePlan {} (regionVariables "us" "2")).resultAt default = .ok plan' ∧
      plan.UpToVariables regionManifest plan' ∧
      plan.triggers.keys = ["tick-eu"] ∧ plan'.triggers.keys = ["tick-us"] := by
  obtain ⟨plan, hplan, hname⟩ := Except.exists_of_any
    (r := (regionManifest.composePlan {} (regionVariables "eu" "1")).resultAt default)
    (p := fun plan => plan.triggers.keys == ["tick-eu"]) (by decide +kernel)
  obtain ⟨plan', hplan', hname'⟩ := Except.exists_of_any
    (r := (regionManifest.composePlan {} (regionVariables "us" "2")).resultAt default)
    (p := fun plan => plan.triggers.keys == ["tick-us"]) (by decide +kernel)
  refine ⟨plan, plan', hplan, hplan', composePlan_upToVariables hplan hplan', ?_, ?_⟩
  · simpa using hname
  · simpa using hname'

end DeployPlan
