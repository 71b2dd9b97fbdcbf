import DeployPlan.Proofs.Compose.Entity
import DeployPlan.Proofs.KeyMap

/-!
# Plans from the parts of packages

A plan is composed package by package.  Its result is told in two steps: what the sections of each
package become, which does not depend on other packages, and how the plan is put together from
that, which cannot fail.

## Main definitions

* `DeployPlan.PackageParts` — what the sections of one package become.
* `Context.partsAt`, `Context.Gives` — the parts of a package over a file tree.
* `Manifest.eachAt` — the same section of all packages.
* `Plan.ofParts` — the plan of the parts of all packages.

## Main results

* `Context.partsAt_eq_ok_iff` — a package has parts if each of its sections can be composed.
* `Manifest.composePlan_resultAt`, `composePlan_eq_ok_iff` — the plan of a document is that of the
  parts of its packages.
-/

set_option autoImplicit false

namespace DeployPlan

/-- A host on which all archives are packed in one way, and all paths are texts. -/
abbrev oneHost : Host where
  packer _ _ := onePacker
  isText _ := true

/-! ## Parts -/

/-- What the sections of a package become. -/
structure PackageParts where
  package : Package
  actions : List ActionRecord
  sequences : List ActionRecord
  triggers : List Trigger
  rules : List Rule
  routes : List Route
  dependencies : KeyMap DependencyRecord

namespace Context

variable (ctx : Context)

/-- Composing the actions of a package leaves the tree alone. -/
theorem composeActions_leavesTree [Host] (package : String) (spec : PackageSpec) :
    (ctx.composeActions package spec).LeavesTree :=
  Compose.LeavesTree.mapM fun e _ =>
    ctx.composeAction_leavesTree (P := Host.packer package e.1) package e.1 e.2

/-- The parts of a package over a tree. -/
def partsAt [Host] (name : String) (spec : PackageSpec) (t : FileTree) :
    Except Failure PackageParts := do
  let package ← (ctx.composePackage name spec).result
  let actions ← (ctx.composeActions name spec).resultAt t
  let sequences ← (ctx.composeSequences name spec).result
  let triggers ← (ctx.composeTriggers spec).result
  let rules ← (ctx.composeRules name spec).result
  let routes ← (ctx.composeRoutes name spec).result
  let dependencies ← (ctx.composeDependencies name spec).result
  return ⟨package, actions, sequences, triggers, rules, routes, dependencies⟩

variable {ctx} {package name : String} {spec : PackageSpec} {t : FileTree}

/-- Each section of a package can be composed over a tree, and gives its part. -/
structure Gives [Host] (ctx : Context) (name : String) (spec : PackageSpec) (t : FileTree)
    (parts : PackageParts) : Prop where
  package : (ctx.composePackage name spec).result = .ok parts.package
  actions : (ctx.composeActions name spec).resultAt t = .ok parts.actions
  sequences : (ctx.composeSequences name spec).result = .ok parts.sequences
  triggers : (ctx.composeTriggers spec).result = .ok parts.triggers
  rules : (ctx.composeRules name spec).result = .ok parts.rules
  routes : (ctx.composeRoutes name spec).result = .ok parts.routes
  dependencies : (ctx.composeDependencies name spec).result = .ok parts.dependencies

/-- **A package has parts** if each of its sections gives one. -/
theorem partsAt_eq_ok_iff [Host] {parts : PackageParts} :
    ctx.partsAt name spec t = .ok parts ↔ ctx.Gives name spec t parts := by
  simp only [partsAt, Except.bind_eq_ok_iff]
  constructor
  · rintro ⟨package, hpackage, actions, hactions, sequences, hsequences, triggers, htriggers,
      rules, hrules, routes, hroutes, dependencies, hdependencies, hparts⟩
    cases hparts
    exact ⟨hpackage, hactions, hsequences, htriggers, hrules, hroutes, hdependencies⟩
  · rintro ⟨hpackage, hactions, hsequences, htriggers, hrules, hroutes, hdependencies⟩
    exact ⟨_, hpackage, _, hactions, _, hsequences, _, htriggers, _, hrules, _, hroutes, _,
      hdependencies, rfl⟩

/-- Actions are composed in the order of their names. -/
theorem composeActions_eq_ok_iff [Host] {records : List ActionRecord} :
    (ctx.composeActions name spec).resultAt t = .ok records ↔
      List.Forall₂ (fun e r =>
        (ctx.composeAction (P := Host.packer name e.1) name e.1 e.2).resultAt t = .ok r)
        spec.actions.entries records := by
  rw [composeActions, Compose.resultAt_mapM fun e _ =>
      ctx.composeAction_leavesTree (P := Host.packer name e.1) name e.1 e.2,
    Except.mapM_eq_ok_iff]

/-- So are sequences. -/
theorem composeSequences_eq_ok_iff {records : List ActionRecord} :
    (ctx.composeSequences name spec).result = .ok records ↔
      List.Forall₂ (fun e r => (ctx.composeSequence name e.1 e.2).result = .ok r)
        spec.sequences.entries records := by
  rw [composeSequences, Report.result_mapM, Except.mapM_eq_ok_iff]

/-- An action is composed under its name, for its package. -/
theorem composeAction_placed [P : Packer] {spec : ActionSpec} {r : ActionRecord}
    (h : (ctx.composeAction package name spec).resultAt t = .ok r) :
    r.action.name = name ∧ r.packageName = package := by
  obtain ⟨loaded, kind, parameters, -, -, -, -, rfl⟩ := (composeAction_eq_ok_iff ctx).mp h
  exact ⟨rfl, rfl⟩

/-- A sequence is composed under its name, for its package. -/
theorem composeSequence_placed {spec : SequenceSpec} {r : ActionRecord}
    (h : (ctx.composeSequence package name spec).result = .ok r) :
    r.action.name = name ∧ r.packageName = package := by
  rw [composeSequence_result] at h
  cases h
  exact ⟨rfl, rfl⟩

/-- A package is composed under its name. -/
theorem composePackage_name {p : Package}
    (h : (ctx.composePackage name spec).result = .ok p) : p.name = name := by
  rw [composePackage_result, Except.map_eq_ok_iff] at h
  obtain ⟨parameters, -, rfl⟩ := h
  rfl

/-- A trigger is composed under what its name becomes. -/
theorem composeTrigger_name {spec : TriggerSpec} {x : Trigger}
    (h : (ctx.composeTrigger name spec).result = .ok x) :
    x.name = Interpolation.expand ctx.vars name := by
  rw [composeTrigger_result, Except.map_eq_ok_iff] at h
  obtain ⟨parameters, -, rfl⟩ := h
  rfl

/-- So is a rule. -/
theorem composeRule_name {spec : RuleSpec} {x : Rule}
    (h : (ctx.composeRule package name spec).result = .ok x) :
    x.name = Interpolation.expand ctx.vars name := by
  rw [composeRule_result] at h
  cases h
  rfl

end Context

/-! ## Putting parts together -/

namespace Plan

/-- Adding entities in turn writes them under their names. -/
@[simp] theorem addNamed_result {α : Type} (kind : String) (name : α → String) (m : KeyMap α)
    (l : List α) :
    (addNamed kind name m l).result = .ok (m.insertAll (l.map fun x => (name x, x))) := by
  induction l generalizing m with
  | nil => rfl
  | cons x l ih =>
    rw [addNamed, List.map_cons, KeyMap.insertAll_cons, ← ih]
    cases m.contains (name x)
    · rfl
    · simp

end Plan

namespace PackageParts

/-- The package with its actions and sequences. -/
def packagePlan (parts : PackageParts) : PackagePlan :=
  ⟨parts.package, Context.recordsByName parts.actions, Context.recordsByName parts.sequences⟩

end PackageParts

namespace Plan

/-- The plan with the parts of one more package. -/
def addParts (plan : Plan) (parts : PackageParts) : Plan where
  packages := plan.packages.insert parts.package.name parts.packagePlan
  triggers := plan.triggers.insertAll (parts.triggers.map fun x => (x.name, x))
  rules := plan.rules.insertAll (parts.rules.map fun x => (x.name, x))
  routes := plan.routes ++ parts.routes
  dependencies := plan.dependencies.union parts.dependencies

/-- The plan of the parts of packages. -/
def ofParts (parts : List PackageParts) : Plan where
  packages := .ofList (parts.map fun x => (x.package.name, x.packagePlan))
  triggers := .ofList ((parts.map (·.triggers)).flatten.map fun x => (x.name, x))
  rules := .ofList ((parts.map (·.rules)).flatten.map fun x => (x.name, x))
  routes := (parts.map (·.routes)).flatten
  dependencies := (parts.map (·.dependencies)).foldl KeyMap.union .empty

/-- Adding the parts of packages in turn gives their plan. -/
theorem foldl_addParts (parts : List PackageParts) : parts.foldl addParts {} = ofParts parts := by
  have writes : ∀ plan : Plan, parts.foldl addParts plan =
      { packages := plan.packages.insertAll (parts.map fun x => (x.package.name, x.packagePlan))
        triggers := plan.triggers.insertAll
          ((parts.map (·.triggers)).flatten.map fun x => (x.name, x))
        rules := plan.rules.insertAll ((parts.map (·.rules)).flatten.map fun x => (x.name, x))
        routes := plan.routes ++ (parts.map (·.routes)).flatten
        dependencies := (parts.map (·.dependencies)).foldl KeyMap.union plan.dependencies } := by
    induction parts with
    | nil => intro plan; simp [KeyMap.insertAll]
    | cons x parts ih =>
      intro plan
      rw [List.foldl_cons, ih]
      simp [addParts, KeyMap.insertAll_append, KeyMap.insertAll_cons]
  exact writes {}

end Plan

namespace Context

variable {ctx : Context} {name : String} {spec : PackageSpec}

/-- A package adds its parts to a plan. -/
theorem addPackage_resultAt [Host] (plan : Plan) (t : FileTree) :
    (ctx.addPackage plan name spec).resultAt t = plan.addParts <$> ctx.partsAt name spec t := by
  rw [addPackage, partsAt]
  cases hpackage : (ctx.composePackage name spec).result with
  | error failure =>
    simp only [Compose.resultAt_liftM_bind, hpackage, Report.result_log, Except.ok_bind,
      Except.error_bind]
    rfl
  | ok package =>
    obtain rfl := composePackage_name hpackage
    simp only [Compose.resultAt_liftM_bind, hpackage, Report.result_log, Except.ok_bind,
      Compose.resultAt_bind (composeActions_leavesTree ctx _ _), Plan.addNamed_result,
      Compose.resultAt_pure, map_bind]
    rfl

/-- Composing a package leaves the tree alone. -/
theorem addPackage_leavesTree [Host] (plan : Plan) :
    (ctx.addPackage plan name spec).LeavesTree := by
  rw [addPackage]
  refine Compose.leavesTree_liftM_bind _ fun _ => Compose.leavesTree_liftM_bind _ fun _ => ?_
  refine (composeActions_leavesTree ctx _ _).bind fun _ => ?_
  refine Compose.leavesTree_liftM_bind _ fun _ => Compose.leavesTree_liftM_bind _ fun _ => ?_
  refine Compose.leavesTree_liftM_bind _ fun _ => Compose.leavesTree_liftM_bind _ fun _ => ?_
  refine Compose.leavesTree_liftM_bind _ fun _ => Compose.leavesTree_liftM_bind _ fun _ => ?_
  exact Compose.leavesTree_liftM_bind _ fun _ => Compose.leavesTree_pure _

/-- So does composing many. -/
theorem addPackages_leavesTree [Host] (plan : Plan) (specs : List (String × PackageSpec)) :
    (ctx.addPackages plan specs).LeavesTree := by
  induction specs generalizing plan with
  | nil => exact Compose.leavesTree_pure plan
  | cons e specs ih => exact (addPackage_leavesTree plan).bind fun plan => ih plan

/-- Packages add their parts to a plan in turn; whether they have parts does not depend on the
plan. -/
theorem addPackages_resultAt [Host] (plan : Plan) (specs : List (String × PackageSpec))
    (t : FileTree) :
    (ctx.addPackages plan specs).resultAt t =
      (fun parts => parts.foldl Plan.addParts plan) <$>
        specs.mapM fun e => ctx.partsAt e.1 e.2 t := by
  induction specs generalizing plan with
  | nil => rfl
  | cons e specs ih =>
    obtain ⟨name, spec⟩ := e
    rw [addPackages, Compose.resultAt_bind (addPackage_leavesTree plan), addPackage_resultAt,
      List.mapM_cons]
    simp only [ih, bind_map_left, map_bind]
    simp

end Context

/-! ## Documents -/

namespace Manifest

/-- The same section of all packages of a document, in the order of their names. -/
def eachAt {α : Type} (m : Manifest) (settings : Settings) (vars : Variables)
    (composed : Context → String → PackageSpec → Except Failure α) : Except Failure (List α) := do
  let ctx ← Context.ofManifest settings vars m
  m.resolved.entries.mapM fun e => composed ctx e.1 e.2

variable {m : Manifest} {settings : Settings} {vars : Variables} {α β : Type}

/-- A section of all packages is composed package by package, in one context. -/
theorem eachAt_eq_ok_iff {composed : Context → String → PackageSpec → Except Failure α}
    {l : List α} :
    m.eachAt settings vars composed = .ok l ↔
      ∃ ctx, Context.ofManifest settings vars m = .ok ctx ∧
        (m.resolved.entries.mapM fun e => composed ctx e.1 e.2) = .ok l := by
  rw [eachAt, Except.bind_eq_ok_iff]

/-- A part of what all packages become is what a part of each becomes. -/
theorem eachAt_map {composed : Context → String → PackageSpec → Except Failure α}
    {composed' : Context → String → PackageSpec → Except Failure β} {f : α → β}
    (h : ∀ ctx name spec x, composed ctx name spec = .ok x → composed' ctx name spec = .ok (f x))
    {l : List α} (hl : m.eachAt settings vars composed = .ok l) :
    m.eachAt settings vars composed' = .ok (l.map f) := by
  obtain ⟨ctx, hctx, hl⟩ := eachAt_eq_ok_iff.mp hl
  refine eachAt_eq_ok_iff.mpr ⟨ctx, hctx, ?_⟩
  rw [Except.mapM_eq_ok_iff] at hl ⊢
  rw [List.forall₂_map_right_iff]
  exact hl.imp fun (e : String × PackageSpec) x => h ctx e.1 e.2 x

/-- A section of all packages can be composed if each package's can. -/
theorem exists_eachAt_eq_ok_iff {composed : Context → String → PackageSpec → Except Failure α} :
    (∃ l, m.eachAt settings vars composed = .ok l) ↔
      ∃ ctx, Context.ofManifest settings vars m = .ok ctx ∧
        ∀ e ∈ m.resolved.entries, ∃ x, composed ctx e.1 e.2 = .ok x := by
  simp only [eachAt_eq_ok_iff, ← Except.exists_mapM_eq_ok_iff]
  constructor
  · rintro ⟨l, ctx, hctx, hl⟩
    exact ⟨ctx, hctx, l, hl⟩
  · rintro ⟨ctx, hctx, l, hl⟩
    exact ⟨l, ctx, hctx, hl⟩

/-- What is composed in the context of a document fails if there is no context. -/
theorem withContext_resultAt (body : Context → Compose α) (t : FileTree) :
    (m.withContext settings vars body).resultAt t =
      Context.ofManifest settings vars m >>= fun ctx => (body ctx).resultAt t :=
  Compose.resultAt_liftM_bind _ _ t

/-- **The plan of a document** is that of the parts of its packages. -/
theorem composePlan_resultAt [Host] (t : FileTree) :
    (m.composePlan settings vars).resultAt t =
      Plan.ofParts <$> m.eachAt settings vars fun ctx name spec => ctx.partsAt name spec t := by
  rw [composePlan, withContext_resultAt, eachAt, map_bind]
  refine bind_congr fun ctx => ?_
  simp only [Compose.resultAt_liftM_bind, Report.result_ofEvents, Report.result_log,
    Except.ok_bind, Compose.resultAt_bind (Context.addPackages_leavesTree _ _),
    Compose.resultAt_pure, Context.addPackages_resultAt, Plan.foldl_addParts,
    Except.bind_ok_eq_map, Except.map_ok]
  exact bind_pure _

/-- The plan of a document is that of the parts which its packages give in one context. -/
theorem composePlan_eq_ok_iff [Host] {t : FileTree} {plan : Plan} :
    (m.composePlan settings vars).resultAt t = .ok plan ↔
      ∃ ctx parts, Context.ofManifest settings vars m = .ok ctx ∧
        List.Forall₂ (fun e x => ctx.Gives e.1 e.2 t x) m.resolved.entries parts ∧
        Plan.ofParts parts = plan := by
  simp only [composePlan_resultAt, Except.map_eq_ok_iff, eachAt_eq_ok_iff, Except.mapM_eq_ok_iff,
    Context.partsAt_eq_ok_iff]
  constructor
  · rintro ⟨parts, ⟨ctx, hctx, hparts⟩, hplan⟩
    exact ⟨ctx, parts, hctx, hparts, hplan⟩
  · rintro ⟨ctx, parts, hctx, hparts, hplan⟩
    exact ⟨parts, ⟨ctx, hctx, hparts⟩, hplan⟩

/-- A document has a plan if all its packages have parts. -/
theorem exists_composePlan_iff [Host] {t : FileTree} :
    (∃ plan, (m.composePlan settings vars).resultAt t = .ok plan) ↔
      ∃ ctx, Context.ofManifest settings vars m = .ok ctx ∧
        ∀ e ∈ m.resolved.entries, ∃ parts, ctx.Gives e.1 e.2 t parts := by
  have heach : (∃ parts, (m.eachAt settings vars fun ctx name spec => ctx.partsAt name spec t) =
      .ok parts) ↔ _ := exists_eachAt_eq_ok_iff
  simp only [composePlan_resultAt, Except.map_eq_ok_iff, ← Context.partsAt_eq_ok_iff, ← heach]
  constructor
  · rintro ⟨plan, parts, hparts, -⟩
    exact ⟨parts, hparts⟩
  · rintro ⟨parts, hparts⟩
    exact ⟨_, parts, hparts, rfl⟩

/-- **Composing a plan leaves the tree as it was found.** -/
theorem composePlan_leavesTree [Host] : (m.composePlan settings vars).LeavesTree := by
  refine Compose.leavesTree_liftM_bind _ fun ctx => ?_
  refine Compose.leavesTree_liftM_bind _ fun _ => ?_
  refine (Context.addPackages_leavesTree _ _).bind fun plan => ?_
  exact Compose.leavesTree_liftM_bind _ fun _ => Compose.leavesTree_pure plan

end Manifest

end DeployPlan
