import DeployPlan.Proofs.Compose.Aggregates
import DeployPlan.Proofs.Compose.Events
import DeployPlan.Proofs.Variables

/-!
# Everything that a document declares

A plan has something for all that a document declares.  Packages, actions, sequences and routes are
there one by one.  Triggers and rules of all packages share their names, which may come from
variables, so that some of them can get one name; the last of these is there, and a warning tells of
each of the others.

## Main definitions

* `DeployPlan.lastNamed?` — the last of some declarations with a name.
* `Plan.AccountsFor` — a plan and a log tell of all that a document declares.

## Main results

* `Plan.repetitions_addNamed` — of entities that are added in turn, those that find their names
  taken are the ones that the map does not grow by.
* `Context.addPackage_repetitions`, `addPackages_repetitions` — the same for the triggers and rules
  of a package, and of many.
* `rel_lastNamed?` — under a name, a map of entities keeps what the last declaration becomes.
* `Manifest.composePlan_accounts` — the plan of a document and its log account for the document.
-/

set_option autoImplicit false

namespace DeployPlan

/-! ## Entities that are added in turn -/

namespace Plan

variable {α : Type} (name : α → String)

/-- The first of some entities is told of if its name is taken. -/
theorem addNamed_cons_events (kind : String) (m : KeyMap α) (x : α) (xs : List α) :
    (addNamed kind name m (x :: xs)).events =
      (if m.contains (name x) then [repeatedName kind (name x)] else []) ++
        (addNamed kind name (m.insert (name x) x) xs).events := by
  rw [addNamed]
  split <;> rfl

/-- **A map grows by each entity** that is added, unless a warning tells of it. -/
theorem repetitions_addNamed (kind : SharedKind) (m : KeyMap α) (l : List α) :
    (m.insertAll (l.map fun x => (name x, x))).size +
        repetitions kind (addNamed kind.word name m l).events =
      m.size + l.length := by
  induction l generalizing m with
  | nil => rfl
  | cons x l ih =>
    have hrest := ih (m.insert (name x) x)
    rw [KeyMap.size_insert] at hrest
    rw [addNamed_cons_events, repetitions_append, List.map_cons, KeyMap.insertAll_cons,
      List.length_cons]
    cases hcontains : m.contains (name x) with
    | true =>
      have htold : repetitions kind [repeatedName kind.word (name x)] = 1 := by
        simp [repetitions, Event.repeats_repeatedName_iff]
      simp only [hcontains, if_true, htold] at hrest ⊢
      omega
    | false =>
      have hnone : repetitions kind [] = 0 := rfl
      simp only [hcontains, Bool.false_eq_true, if_false, hnone] at hrest ⊢
      omega

/-- The warnings about the other kind tell of nothing of this one. -/
theorem repetitions_addNamed_of_ne {kind kind' : SharedKind} (h : kind' ≠ kind) (m : KeyMap α)
    (l : List α) : repetitions kind (addNamed kind'.word name m l).events = 0 := by
  induction l generalizing m with
  | nil => rfl
  | cons x l ih =>
    rw [addNamed_cons_events, repetitions_append, ih]
    split
    · simp [repetitions, Event.repeats_repeatedName_iff, h]
    · rfl

end Plan

/-! ## Triggers and rules of packages -/

namespace SharedKind

/-- The number of entities of a kind in a plan. -/
def size : SharedKind → Plan → Nat
  | .trigger, plan => plan.triggers.size
  | .rule, plan => plan.rules.size

/-- The number of entities of a kind in the parts of a package. -/
def count : SharedKind → PackageParts → Nat
  | .trigger, parts => parts.triggers.length
  | .rule, parts => parts.rules.length

/-- The number of entities of a kind in the parts of several packages. -/
def total : SharedKind → List PackageParts → Nat
  | .trigger, l => (l.map (·.triggers)).flatten.length
  | .rule, l => (l.map (·.rules)).flatten.length

/-- The number for one more package is the sum. -/
theorem total_cons (kind : SharedKind) (parts : PackageParts) (l : List PackageParts) :
    kind.total (parts :: l) = kind.count parts + kind.total l := by
  cases kind <;> exact List.length_append

/-- The number of declared entities of a kind. -/
def declared : SharedKind → Manifest → Nat
  | .trigger, m => m.triggerDeclarations.length
  | .rule, m => m.ruleDeclarations.length

end SharedKind

namespace Compose

variable {α β : Type} {c : Compose α} {f : α → Compose β} {t : FileTree} {a : α}

/-- The events over a tree. -/
def eventsAt (c : Compose α) (t : FileTree) : List Event := (c t).report.events

/-- The events of what goes on come after those of the first part. -/
theorem eventsAt_bind (hc : c.LeavesTree) (h : c.resultAt t = .ok a) :
    (c >>= f).eventsAt t = c.eventsAt t ++ (f a).eventsAt t := by
  rw [eventsAt, bind_apply_ok h, hc t]
  rfl

/-- The same behind a report. -/
theorem eventsAt_liftM_bind {r : Report α} (h : r.result = .ok a) :
    ((liftM r : Compose α) >>= f).eventsAt t = r.events ++ (f a).eventsAt t :=
  eventsAt_bind (leavesTree_liftM r) h

/-- There are no warnings about names that are taken in a log that is quiet but for archives. -/
theorem repetitions_of_tells [Host] {kind : SharedKind} (h : c.Tells Event.Quiet) :
    repetitions kind (c.eventsAt t) = 0 :=
  (h t).repetitions_eq_zero kind

end Compose

namespace Context

variable {ctx : Context} {name : String} {spec : PackageSpec} {t : FileTree}
  {parts : PackageParts}

/-- While a package is added to a plan, the warnings about names that are taken are those about
its triggers and rules. -/
theorem repetitions_addPackage [Host] (h : ctx.Gives name spec t parts) (plan : Plan)
    (kind : SharedKind) :
    repetitions kind ((ctx.addPackage plan name spec).eventsAt t) =
      repetitions kind (Plan.addNamed "trigger" Trigger.name plan.triggers parts.triggers).events +
        repetitions kind (Plan.addNamed "rule" Rule.name plan.rules parts.rules).events := by
  obtain ⟨hpackage, hactions, hsequences, htriggers, hrules, hroutes, hdependencies⟩ := h
  rw [addPackage, Compose.eventsAt_liftM_bind rfl, Compose.eventsAt_liftM_bind hpackage,
    Compose.eventsAt_bind (ctx.composeActions_leavesTree _ _) hactions,
    Compose.eventsAt_liftM_bind hsequences, Compose.eventsAt_liftM_bind htriggers,
    Compose.eventsAt_liftM_bind (Plan.addNamed_result _ _ _ _),
    Compose.eventsAt_liftM_bind hrules, Compose.eventsAt_liftM_bind (Plan.addNamed_result _ _ _ _),
    Compose.eventsAt_liftM_bind hroutes, Compose.eventsAt_liftM_bind hdependencies]
  have hstart : (Report.log .debug ("composing package " ++ name)).Quiet :=
    Report.quiet_log (by decide) _
  have hend : ∀ plan : Plan, (pure plan : Compose Plan).Tells Event.Quiet :=
    fun plan => (Compose.quiet_pure plan).tells
  simp only [repetitions_append, repetitions_of_quiet hstart,
    repetitions_of_quiet (ctx.composePackage_quiet name spec),
    Compose.repetitions_of_tells (ctx.composeActions_tells name spec),
    repetitions_of_quiet (ctx.composeSequences_quiet name spec),
    repetitions_of_quiet (ctx.composeTriggers_quiet spec),
    repetitions_of_quiet (ctx.composeRules_quiet name spec),
    repetitions_of_quiet (ctx.composeRoutes_quiet name spec),
    repetitions_of_quiet (ctx.composeDependencies_quiet name spec),
    Compose.repetitions_of_tells (hend _), Nat.zero_add, Nat.add_zero]

/-- **A package grows a plan by its triggers and rules**, unless a warning tells of them. -/
theorem addPackage_repetitions [Host] (h : ctx.Gives name spec t parts) (plan : Plan)
    (kind : SharedKind) :
    kind.size (plan.addParts parts) +
        repetitions kind ((ctx.addPackage plan name spec).eventsAt t) =
      kind.size plan + kind.count parts := by
  rw [repetitions_addPackage h]
  cases kind with
  | trigger =>
    have hrules : repetitions .trigger
        (Plan.addNamed "rule" Rule.name plan.rules parts.rules).events = 0 :=
      Plan.repetitions_addNamed_of_ne Rule.name (by decide : SharedKind.rule ≠ .trigger) _ _
    rw [hrules, Nat.add_zero]
    exact Plan.repetitions_addNamed Trigger.name .trigger plan.triggers parts.triggers
  | rule =>
    have htriggers : repetitions .rule
        (Plan.addNamed "trigger" Trigger.name plan.triggers parts.triggers).events = 0 :=
      Plan.repetitions_addNamed_of_ne Trigger.name (by decide : SharedKind.trigger ≠ .rule) _ _
    rw [htriggers, Nat.zero_add]
    exact Plan.repetitions_addNamed Rule.name .rule plan.rules parts.rules

/-- **So do packages in turn.** -/
theorem addPackages_repetitions [Host] {specs : List (String × PackageSpec)} {l : List PackageParts}
    (h : List.Forall₂ (fun e x => ctx.Gives e.1 e.2 t x) specs l) (plan : Plan)
    (kind : SharedKind) :
    kind.size (l.foldl Plan.addParts plan) +
        repetitions kind ((ctx.addPackages plan specs).eventsAt t) =
      kind.size plan + kind.total l := by
  induction h generalizing plan with
  | nil => cases kind <;> rfl
  | @cons e parts specs l hparts _ ih =>
    have hadded : (ctx.addPackage plan e.1 e.2).resultAt t = .ok (plan.addParts parts) := by
      rw [addPackage_resultAt, partsAt_eq_ok_iff.mpr hparts]
      rfl
    have hfirst := addPackage_repetitions hparts plan kind
    have hrest := ih (plan.addParts parts)
    rw [addPackages, Compose.eventsAt_bind (addPackage_leavesTree plan) hadded,
      repetitions_append, List.foldl_cons, SharedKind.total_cons]
    omega

end Context

/-! ## The last declaration with a name -/

section Last

variable {δ : Type}

/-- The last of some declarations with a name. -/
def lastNamed? (nameOf : δ → String) (key : String) (declarations : List δ) : Option δ :=
  declarations.reverse.find? fun d => nameOf d == key

variable {α : Type} {R : δ → α → Prop} {nameOf : δ → String} {name : α → String}
  {declarations : List δ} {l : List α}

/-- The first declaration with a name and the first entry under it belong together. -/
theorem rel_find?
    (h : List.Forall₂ (fun d x => name x = nameOf d ∧ R d x) declarations l) (key : String) :
    Option.Rel R (declarations.find? fun d => nameOf d == key)
      (Entries.find? key (l.map fun x => (name x, x))) := by
  induction h with
  | nil => exact .none
  | @cons d x declarations l hx _ ih =>
    rw [List.find?_cons, List.map_cons, Entries.find?, hx.1]
    by_cases hkey : nameOf d = key
    · simp only [hkey, beq_self_eq_true, if_true]
      exact .some hx.2
    · have hne : (nameOf d == key) = false := beq_eq_false_iff_ne.mpr hkey
      rw [if_neg (Ne.symm hkey)]
      simpa only [hne] using ih

/-- **Under a name, a map keeps what the last declaration becomes**, if it is made of what
declarations become under their names. -/
theorem rel_lastNamed?
    (h : List.Forall₂ (fun d x => name x = nameOf d ∧ R d x) declarations l) (key : String) :
    Option.Rel R (lastNamed? nameOf key declarations)
      ((KeyMap.ofList (l.map fun x => (name x, x))).get? key) := by
  -- Of entries under one key the last counts, which is the first from the end.
  rw [lastNamed?, KeyMap.ofList, KeyMap.get?_insertAll, KeyMap.get?_empty, Option.or_none,
    ← List.map_reverse]
  exact rel_find? (List.forall₂_reverse_iff.mpr h) key

end Last

/-! ## Documents -/

/-- What is composed for a package is kept under the names that it was composed for. -/
theorem PackagePlan.Obeys.placed [Host] {ctx : Context} {t : FileTree} {name : String}
    {spec : PackageSpec} {q : PackagePlan} (h : q.Obeys (.composed ctx t) name spec) :
    q.Placed name := by
  refine ⟨Context.composePackage_name h.package, fun action r hr => ?_, fun sequence r hr => ?_⟩
  · obtain ⟨declared, -, hcomposed⟩ := h.actions.get?_right hr
    exact Context.composeAction_placed (P := Host.packer name action) hcomposed
  · obtain ⟨declared, -, hcomposed⟩ := h.sequences.get?_right hr
    exact Context.composeSequence_placed hcomposed

/-- **A plan accounts for a document**, together with the log of composing it: there is something in
it for all that the document declares, or a warning about it. -/
structure Plan.AccountsFor [Host] (plan : Plan) (m : Manifest) (ctx : Context) (t : FileTree)
    (log : List Event) : Prop where
  /-- Packages, actions and sequences are kept one by one, under their own names. -/
  packages : KeyMap.RelAt
    (fun name spec q => q.Obeys (.composed ctx t) name spec ∧ q.Placed name) m.resolved
    plan.packages
  /-- So are routes, in their order. -/
  routes : List.Forall₂
    (fun d x => Route.ofLeaf d.1.1 (ctx.namespaceFor d.1.2.namespace) d.2 = .ok x)
    m.routeDeclarations plan.routes
  /-- Of triggers with one name the last is kept. -/
  triggers : ∀ key, Option.Rel (fun d x => (ctx.composeTrigger d.1 d.2).result = .ok x)
    (lastNamed? (fun d => Interpolation.expand ctx.vars d.1) key m.triggerDeclarations)
    (plan.triggers.get? key)
  /-- So it is with rules. -/
  rules : ∀ key, Option.Rel (fun d x => (ctx.composeRule d.1 d.2.1 d.2.2).result = .ok x)
    (lastNamed? (fun d => Interpolation.expand ctx.vars d.2.1) key m.ruleDeclarations)
    (plan.rules.get? key)
  /-- A warning tells of each trigger that is not kept. -/
  triggerCount : plan.triggers.size + repetitions .trigger log = m.triggerDeclarations.length
  /-- So it is with rules. -/
  ruleCount : plan.rules.size + repetitions .rule log = m.ruleDeclarations.length

namespace Manifest

variable {m : Manifest} {settings : Settings} {vars : Variables} {t : FileTree} {plan : Plan}

/-- The parts of all packages have as many triggers and rules as the document declares. -/
theorem total_eq_declared [Host] {ctx : Context} {parts : List PackageParts}
    (h : List.Forall₂ (fun e x => ctx.Gives e.1 e.2 t x) m.resolved.entries parts)
    (kind : SharedKind) : kind.total parts = kind.declared m := by
  cases kind with
  | trigger => exact (Context.forall₂_triggers h).length_eq.symm
  | rule => exact (Context.forall₂_rules h).length_eq.symm

/-- The warning about packages that are given in a former way tells of no name. -/
theorem sourceEvents_quiet : ∀ e ∈ m.sourceEvents, e.Quiet := by
  have htext := Event.quiet_warning "the 'package' key is deprecated, " (by decide)
    "use 'packages' instead"
  rw [sourceEvents]
  split
  · exact List.forall_mem_singleton.mpr htext
  · exact nofun

/-- **The triggers and rules that a document declares** are those of its plan, and those that a
warning tells of. -/
theorem composePlan_repetitions [Host] (h : (m.composePlan settings vars).resultAt t = .ok plan)
    (kind : SharedKind) :
    kind.size plan + repetitions kind ((m.composePlan settings vars).eventsAt t) =
      kind.declared m := by
  obtain ⟨ctx, parts, hctx, hparts, rfl⟩ := composePlan_eq_ok_iff.mp h
  have hadded : (ctx.addPackages {} m.resolved.entries).resultAt t = .ok (Plan.ofParts parts) := by
    have hall : (m.resolved.entries.mapM fun e => ctx.partsAt e.1 e.2 t) = .ok parts :=
      Except.mapM_eq_ok_iff.mpr (hparts.imp fun _ _ hx => Context.partsAt_eq_ok_iff.mpr hx)
    rw [Context.addPackages_resultAt, hall, Except.map_ok, Plan.foldl_addParts]
  have hcontext : (Report.ofExcept (Context.ofManifest settings vars m)).Quiet :=
    Report.quiet_ofExcept _
  have hsource : (Report.ofEvents m.sourceEvents).Quiet := sourceEvents_quiet
  have hsummary : (Report.log .info (Plan.ofParts parts).summary).Quiet :=
    Report.quiet_log (by decide) _
  have hend : (pure (Plan.ofParts parts) : Compose Plan).Tells Event.Quiet :=
    (Compose.quiet_pure _).tells
  have hgrown := Context.addPackages_repetitions hparts {} kind
  have hempty : kind.size {} = 0 := by cases kind <;> rfl
  rw [composePlan, withContext, Compose.eventsAt_liftM_bind hctx, Compose.eventsAt_liftM_bind rfl,
    Compose.eventsAt_bind (Context.addPackages_leavesTree _ _) hadded,
    Compose.eventsAt_liftM_bind rfl]
  rw [Plan.foldl_addParts, hempty, Nat.zero_add, total_eq_declared hparts] at hgrown
  -- Of the log, only what comes from the packages counts.
  simp only [repetitions_append, repetitions_of_quiet hcontext, repetitions_of_quiet hsource,
    repetitions_of_quiet hsummary, Compose.repetitions_of_tells hend, Nat.zero_add, Nat.add_zero]
  exact hgrown

/-- **The plan of a document accounts for it**: there is one package, one action, one sequence and
one route for each that is declared; and of the triggers with one name, and of the rules with one
name, there is the last, with one warning for each of the others.

**Proof sketch.** The plan is that of the parts of packages.  What is kept one by one is what single
entities become; what is kept by name is what was written last.  A package grows the plan by its
triggers and rules, but for those that the warnings count; by induction so do all packages, and
nothing else that is told on the way counts. -/
theorem composePlan_accounts [Host]
    (h : (m.composePlan settings vars).resultAt t = .ok plan) :
    ∃ ctx, Context.ofManifest settings vars m = .ok ctx ∧
      plan.AccountsFor m ctx t ((m.composePlan settings vars).eventsAt t) := by
  obtain ⟨ctx, parts, hctx, hparts, hplan⟩ := composePlan_eq_ok_iff.mp h
  have hobeys := composePlan_composed hctx h
  refine ⟨ctx, hctx, ?_⟩
  constructor
  case packages =>
    exact hobeys.packages.imp fun name spec q hq => ⟨hq, hq.placed⟩
  case routes =>
    subst hplan
    exact Context.forall₂_routes hparts
  case triggers =>
    intro key
    subst hplan
    exact rel_lastNamed? ((Context.forall₂_triggers hparts).imp fun d x hx =>
      ⟨Context.composeTrigger_name hx, hx⟩) key
  case rules =>
    intro key
    subst hplan
    exact rel_lastNamed? ((Context.forall₂_rules hparts).imp fun d x hx =>
      ⟨Context.composeRule_name hx, hx⟩) key
  case triggerCount => exact composePlan_repetitions h .trigger
  case ruleCount => exact composePlan_repetitions h .rule

attribute [local instance] oneHost

/-- A document of two packages that share a rule, and a trigger if the variable stands for its
name. -/
def clockManifest : Manifest where
  packages := .ofList
    [("cart", {
        actions := .single "pay" { runtime := "nodejs:20" }
        sequences := .single "buy" { actions := "pay" }
        triggers := .ofList [("$CLOCK", {}), ("tick", {})]
        rules := .single "nightly" { trigger := "tick", action := "pay" }
        apis := .single "store" (.single "v1" (.single "cart" (.single "pay" "post"))) }),
      ("shop", {
        triggers := .single "tick" { feed := "/whisk.system/alarms" }
        rules := .single "nightly" { trigger := "tick", action := "/_/cart/pay" } })]

/-- What the variable stands for. -/
def clockVariables : Variables where
  own := .single "CLOCK" "tick"

/-- The plan has one trigger with the feed of the later package, and one rule; two warnings tell of
the other triggers, and one of the other rule. -/
theorem clockManifest_accounted :
    ∃ plan ctx,
      (clockManifest.composePlan {} clockVariables).resultAt default = .ok plan ∧
      plan.AccountsFor clockManifest ctx default
        ((clockManifest.composePlan {} clockVariables).eventsAt default) ∧
      ((plan.triggers.get? "tick").any fun x => KeyValues.keys x.annotations == ["feed"]) = true ∧
      repetitions .trigger
        ((clockManifest.composePlan {} clockVariables).eventsAt default) = 2 ∧
      repetitions .rule ((clockManifest.composePlan {} clockVariables).eventsAt default) = 1 := by
  obtain ⟨plan, hplan, htest⟩ := Except.exists_of_any
    (r := (clockManifest.composePlan {} clockVariables).resultAt default)
    (p := fun plan => plan.triggers.size == 1 && plan.rules.size == 1 &&
      (plan.triggers.get? "tick").any fun x => KeyValues.keys x.annotations == ["feed"])
    (by decide +kernel)
  simp only [Bool.and_eq_true, beq_iff_eq] at htest
  obtain ⟨⟨htriggers, hrules⟩, hfeed⟩ := htest
  obtain ⟨ctx, -, haccounts⟩ := composePlan_accounts hplan
  have htriggerDeclarations : clockManifest.triggerDeclarations.length = 3 := by decide +kernel
  have hruleDeclarations : clockManifest.ruleDeclarations.length = 2 := by decide +kernel
  have htriggerCount := haccounts.triggerCount
  have hruleCount := haccounts.ruleCount
  exact ⟨plan, ctx, hplan, haccounts, hfeed, by omega, by omega⟩

end Manifest

end DeployPlan
