import DeployPlan.Proofs.Compose.Parts

/-!
# Plans and the sections of documents

The entities of a document can be composed in two ways: all of them as a plan, package by package,
or one section at a time, over all packages.  Both ways succeed on the same documents, and what
the sections give is what the plan holds.

## Main definitions

* `DeployPlan.Aggregates` — what the sections of a document give.
* `Manifest.Gives` — each section of a document can be composed, and gives its aggregate.
* `Plan.Gathers` — a plan holds what the sections give, in their order.

## Main results

* `Manifest.composePlan_gathers_aggregates` — a document has a plan if and only if each of its
  sections can be composed, and the plan gathers what they give.
-/

set_option autoImplicit false

namespace DeployPlan

/-! ## Names in plans -/

/-- Records under the names of what they were composed from are kept by name in their order. -/
theorem Context.values_recordsByName {α : Type} {specs : KeyMap α} {records : List ActionRecord}
    (h : List.Forall₂ (fun e r => r.action.name = e.1) specs.entries records) :
    (recordsByName records).values = records := by
  rw [recordsByName, KeyMap.values, KeyMap.entries_ofList_of_forall₂ (m := specs)]
  · simp [Function.comp_def]
  · rwa [List.forall₂_map_right_iff]

/-- Each record of a package is kept under its name. -/
structure PackagePlan.Placed (name : String) (q : PackagePlan) : Prop where
  package : q.package.name = name
  actions : ∀ action r, q.actions.get? action = some r →
    r.action.name = action ∧ r.packageName = name
  sequences : ∀ sequence r, q.sequences.get? sequence = some r →
    r.action.name = sequence ∧ r.packageName = name

namespace Context

variable {ctx : Context} {name : String} {spec : PackageSpec} {t : FileTree}
  {parts : PackageParts}

/-- The actions of a package are kept by name in the order in which they are composed. -/
theorem values_actions_of_partsAt [Host] (h : ctx.partsAt name spec t = .ok parts) :
    parts.packagePlan.actions.values = parts.actions := by
  have hactions := composeActions_eq_ok_iff.mp (partsAt_eq_ok_iff.mp h).actions
  exact values_recordsByName (hactions.imp fun e _ hr =>
    (composeAction_placed (P := Host.packer name e.1) hr).1)

/-- So are its sequences. -/
theorem values_sequences_of_partsAt [Host] (h : ctx.partsAt name spec t = .ok parts) :
    parts.packagePlan.sequences.values = parts.sequences := by
  have hsequences := composeSequences_eq_ok_iff.mp (partsAt_eq_ok_iff.mp h).sequences
  exact values_recordsByName (hsequences.imp fun _ _ hr => (composeSequence_placed hr).1)

/-- Records that are kept by name are under their names. -/
theorem mem_of_get?_recordsByName {records : List ActionRecord} {key : String} {r : ActionRecord}
    (h : (recordsByName records).get? key = some r) : r ∈ records ∧ r.action.name = key := by
  obtain ⟨r', hr', heq⟩ := List.mem_map.mp (KeyMap.mem_of_get?_ofList h)
  cases heq
  exact ⟨hr', rfl⟩

/-- Each record of a package that was composed is kept under its name. -/
theorem placed_of_partsAt [Host] (h : ctx.partsAt name spec t = .ok parts) :
    parts.packagePlan.Placed name := by
  obtain ⟨hpackage, hactions, hsequences, -⟩ := partsAt_eq_ok_iff.mp h
  refine ⟨composePackage_name hpackage, ?_, ?_⟩
  · intro action r hr
    obtain ⟨hmem, hname⟩ := mem_of_get?_recordsByName hr
    obtain ⟨e, -, he⟩ := exists_of_forall₂ (composeActions_eq_ok_iff.mp hactions) hmem
    exact ⟨hname, (composeAction_placed (P := Host.packer name e.1) he).2⟩
  · intro sequence r hr
    obtain ⟨hmem, hname⟩ := mem_of_get?_recordsByName hr
    obtain ⟨e, -, he⟩ := exists_of_forall₂ (composeSequences_eq_ok_iff.mp hsequences) hmem
    exact ⟨hname, (composeSequence_placed he).2⟩

end Context

/-! ## Aggregates -/

/-- What the sections of a document give. -/
structure Aggregates where
  packages : KeyMap Package
  actions : List ActionRecord
  sequences : List ActionRecord
  triggers : List Trigger
  rules : List Rule
  routes : List Route
  dependencies : KeyMap DependencyRecord

/-- The aggregates of the parts of packages. -/
def Aggregates.ofParts (parts : List PackageParts) : Aggregates where
  packages := .ofList ((parts.map (·.package)).map fun p => (p.name, p))
  actions := (parts.map (·.actions)).flatten
  sequences := (parts.map (·.sequences)).flatten
  triggers := (parts.map (·.triggers)).flatten
  rules := (parts.map (·.rules)).flatten
  routes := (parts.map (·.routes)).flatten
  dependencies := (parts.map (·.dependencies)).foldl KeyMap.union .empty

/-- Each section of a document can be composed over a tree, and gives its aggregate. -/
structure Manifest.Gives [Host] (m : Manifest) (settings : Settings) (vars : Variables)
    (t : FileTree) (a : Aggregates) : Prop where
  packages : (m.composePackages settings vars).resultAt t = .ok a.packages
  actions : (m.composeActions settings vars).resultAt t = .ok a.actions
  sequences : (m.composeSequences settings vars).resultAt t = .ok a.sequences
  triggers : (m.composeTriggers settings vars).resultAt t = .ok a.triggers
  rules : (m.composeRules settings vars).resultAt t = .ok a.rules
  routes : (m.composeRoutes settings vars).resultAt t = .ok a.routes
  dependencies : (m.composeDependencies settings vars).resultAt t = .ok a.dependencies

/-- A plan holds what the sections of a document give. -/
structure Plan.Gathers (plan : Plan) (a : Aggregates) : Prop where
  packages : plan.packages.mapValues (·.package) = a.packages
  /-- Actions come by package and name. -/
  actions : plan.packages.values.flatMap (fun q => q.actions.values) = a.actions
  /-- So do sequences. -/
  sequences : plan.packages.values.flatMap (fun q => q.sequences.values) = a.sequences
  placed : ∀ name q, plan.packages.get? name = some q → q.Placed name
  /-- Of two triggers with one name the later stays. -/
  triggers : plan.triggers = .ofList (a.triggers.map fun x => (x.name, x))
  /-- So it is with rules. -/
  rules : plan.rules = .ofList (a.rules.map fun x => (x.name, x))
  routes : plan.routes = a.routes
  dependencies : plan.dependencies = a.dependencies

/-! ## Sections -/

namespace Manifest

variable {m : Manifest} {settings : Settings} {vars : Variables} {t : FileTree}

/-- Packages are composed in the order of their names, up to the first failure. -/
theorem eachPackage_resultAt {α : Type} {compose : String → PackageSpec → Compose α}
    (h : ∀ name spec, (compose name spec).LeavesTree) :
    (m.eachPackage compose).resultAt t =
      m.resolved.entries.mapM fun e => (compose e.1 e.2).resultAt t :=
  Compose.resultAt_mapM (fun e _ => h e.1 e.2) t

/-- A section over all packages is composed package by package. -/
theorem section_resultAt {α β : Type} {compose : Context → String → PackageSpec → Compose α}
    (h : ∀ ctx name spec, (compose ctx name spec).LeavesTree) (gather : List α → β) :
    (m.withContext settings vars fun ctx =>
        m.eachPackage (compose ctx) >>= fun l => pure (gather l)).resultAt t =
      gather <$> m.eachAt settings vars fun ctx name spec =>
        (compose ctx name spec).resultAt t := by
  rw [withContext_resultAt, eachAt, map_bind]
  refine bind_congr fun ctx => ?_
  rw [← eachPackage_resultAt (h ctx)]
  exact (Compose.resultAt_bind_ofReport _ _ t).trans (Except.bind_ok_eq_map _ _)

/-- The aggregate of the packages. -/
theorem composePackages_resultAt (t : FileTree) :
    (m.composePackages settings vars).resultAt t =
      (fun packages => KeyMap.ofList (packages.map fun p => (p.name, p))) <$>
        m.eachAt settings vars fun ctx name spec => (ctx.composePackage name spec).result := by
  rw [composePackages, withContext_resultAt]
  simp only [Compose.resultAt_liftM_bind, Report.result_ofEvents, Except.ok_bind]
  rw [← withContext_resultAt]
  exact section_resultAt (fun _ _ _ => Compose.leavesTree_liftM _) _

/-- The aggregate of the actions. -/
theorem composeActions_resultAt [Host] (t : FileTree) :
    (m.composeActions settings vars).resultAt t =
      List.flatten <$> m.eachAt settings vars fun ctx name spec =>
        (ctx.composeActions name spec).resultAt t :=
  section_resultAt (fun ctx => ctx.composeActions_leavesTree) _

/-- The aggregate of the sequences. -/
theorem composeSequences_resultAt (t : FileTree) :
    (m.composeSequences settings vars).resultAt t =
      List.flatten <$> m.eachAt settings vars fun ctx name spec =>
        (ctx.composeSequences name spec).result :=
  section_resultAt (fun _ _ _ => Compose.leavesTree_liftM _) _

/-- The aggregate of the triggers. -/
theorem composeTriggers_resultAt (t : FileTree) :
    (m.composeTriggers settings vars).resultAt t =
      List.flatten <$> m.eachAt settings vars fun ctx _ spec =>
        (ctx.composeTriggers spec).result :=
  section_resultAt (fun _ _ _ => Compose.leavesTree_liftM _) _

/-- The aggregate of the rules. -/
theorem composeRules_resultAt (t : FileTree) :
    (m.composeRules settings vars).resultAt t =
      List.flatten <$> m.eachAt settings vars fun ctx name spec =>
        (ctx.composeRules name spec).result :=
  section_resultAt (fun _ _ _ => Compose.leavesTree_liftM _) _

/-- The aggregate of the routes. -/
theorem composeRoutes_resultAt (t : FileTree) :
    (m.composeRoutes settings vars).resultAt t =
      List.flatten <$> m.eachAt settings vars fun ctx name spec =>
        (ctx.composeRoutes name spec).result :=
  section_resultAt (fun _ _ _ => Compose.leavesTree_liftM _) _

/-- The aggregate of the dependencies. -/
theorem composeDependencies_resultAt (t : FileTree) :
    (m.composeDependencies settings vars).resultAt t =
      (fun records => records.foldl KeyMap.union .empty) <$>
        m.eachAt settings vars fun ctx name spec => (ctx.composeDependencies name spec).result :=
  section_resultAt (fun _ _ _ => Compose.leavesTree_liftM _) _

/-! ## Plans and sections -/

/-- The sections of packages that have parts give the aggregates of these. -/
theorem gives_ofParts [Host] {parts : List PackageParts}
    (h : (m.eachAt settings vars fun ctx name spec => ctx.partsAt name spec t) = .ok parts) :
    m.Gives settings vars t (.ofParts parts) where
  packages := by
    rw [composePackages_resultAt,
      eachAt_map (fun _ _ _ _ hx => (Context.partsAt_eq_ok_iff.mp hx).package) h]
    rfl
  actions := by
    rw [composeActions_resultAt,
      eachAt_map (fun _ _ _ _ hx => (Context.partsAt_eq_ok_iff.mp hx).actions) h]
    rfl
  sequences := by
    rw [composeSequences_resultAt,
      eachAt_map (fun _ _ _ _ hx => (Context.partsAt_eq_ok_iff.mp hx).sequences) h]
    rfl
  triggers := by
    rw [composeTriggers_resultAt,
      eachAt_map (fun _ _ _ _ hx => (Context.partsAt_eq_ok_iff.mp hx).triggers) h]
    rfl
  rules := by
    rw [composeRules_resultAt,
      eachAt_map (fun _ _ _ _ hx => (Context.partsAt_eq_ok_iff.mp hx).rules) h]
    rfl
  routes := by
    rw [composeRoutes_resultAt,
      eachAt_map (fun _ _ _ _ hx => (Context.partsAt_eq_ok_iff.mp hx).routes) h]
    rfl
  dependencies := by
    rw [composeDependencies_resultAt,
      eachAt_map (fun _ _ _ _ hx => (Context.partsAt_eq_ok_iff.mp hx).dependencies) h]
    rfl

/-- The sections of a document give one thing at most. -/
theorem Gives.unique [Host] {a b : Aggregates} (ha : m.Gives settings vars t a)
    (hb : m.Gives settings vars t b) : a = b := by
  have hpackages := ha.packages.symm.trans hb.packages
  have hactions := ha.actions.symm.trans hb.actions
  have hsequences := ha.sequences.symm.trans hb.sequences
  have htriggers := ha.triggers.symm.trans hb.triggers
  have hrules := ha.rules.symm.trans hb.rules
  have hroutes := ha.routes.symm.trans hb.routes
  have hdependencies := ha.dependencies.symm.trans hb.dependencies
  cases a
  cases b
  simp_all

/-- A section that can be composed over all packages can be composed in each. -/
theorem exists_of_map_eachAt {α β : Type}
    {composed : Context → String → PackageSpec → Except Failure α} {gather : List α → β} {b : β}
    {ctx : Context} (hctx : Context.ofManifest settings vars m = .ok ctx)
    (h : gather <$> m.eachAt settings vars composed = .ok b) :
    ∀ e ∈ m.resolved.entries, ∃ x, composed ctx e.1 e.2 = .ok x := by
  obtain ⟨l, hl, -⟩ := Except.map_eq_ok_iff.mp h
  obtain ⟨ctx', hctx', hl⟩ := eachAt_eq_ok_iff.mp hl
  obtain rfl : ctx' = ctx := Except.ok.inj (hctx'.symm.trans hctx)
  exact Except.exists_mapM_eq_ok_iff.mp ⟨l, hl⟩

/-- If each section can be composed over all packages, all packages have parts. -/
theorem exists_parts_of_gives [Host] {a : Aggregates} (h : m.Gives settings vars t a) :
    ∃ parts,
      (m.eachAt settings vars fun ctx name spec => ctx.partsAt name spec t) = .ok parts := by
  obtain ⟨hpackages, hactions, hsequences, htriggers, hrules, hroutes, hdependencies⟩ := h
  rw [composePackages_resultAt] at hpackages
  rw [composeActions_resultAt] at hactions
  rw [composeSequences_resultAt] at hsequences
  rw [composeTriggers_resultAt] at htriggers
  rw [composeRules_resultAt] at hrules
  rw [composeRoutes_resultAt] at hroutes
  rw [composeDependencies_resultAt] at hdependencies
  obtain ⟨l, hl, -⟩ := Except.map_eq_ok_iff.mp hpackages
  obtain ⟨ctx, hctx, -⟩ := eachAt_eq_ok_iff.mp hl
  refine exists_eachAt_eq_ok_iff.mpr ⟨ctx, hctx, fun e he => ?_⟩
  obtain ⟨package, hpackage⟩ := exists_of_map_eachAt hctx hpackages e he
  obtain ⟨actions, hactions⟩ := exists_of_map_eachAt hctx hactions e he
  obtain ⟨sequences, hsequences⟩ := exists_of_map_eachAt hctx hsequences e he
  obtain ⟨triggers, htriggers⟩ := exists_of_map_eachAt hctx htriggers e he
  obtain ⟨rules, hrules⟩ := exists_of_map_eachAt hctx hrules e he
  obtain ⟨routes, hroutes⟩ := exists_of_map_eachAt hctx hroutes e he
  obtain ⟨dependencies, hdependencies⟩ := exists_of_map_eachAt hctx hdependencies e he
  exact ⟨⟨package, actions, sequences, triggers, rules, routes, dependencies⟩,
    Context.partsAt_eq_ok_iff.mpr
      ⟨hpackage, hactions, hsequences, htriggers, hrules, hroutes, hdependencies⟩⟩

/-- The plan of parts gathers their aggregates. -/
theorem gathers_ofParts [Host] {parts : List PackageParts}
    (h : (m.eachAt settings vars fun ctx name spec => ctx.partsAt name spec t) = .ok parts) :
    (Plan.ofParts parts).Gathers (.ofParts parts) := by
  obtain ⟨ctx, -, hl⟩ := eachAt_eq_ok_iff.mp h
  -- packages and records come in the order of their names, which is that of the maps they go to
  have named : List.Forall₂ (fun e x => x.package.name = e.1) m.resolved.entries parts :=
    (Except.mapM_eq_ok_iff.mp hl).imp fun _ _ hx =>
      Context.composePackage_name (Context.partsAt_eq_ok_iff.mp hx).package
  have hentries : (Plan.ofParts parts).packages.entries =
      parts.map fun x => (x.package.name, x.packagePlan) :=
    KeyMap.entries_ofList_of_forall₂ (by rwa [List.forall₂_map_right_iff])
  have hvalues : (Plan.ofParts parts).packages.values = parts.map (·.packagePlan) := by
    rw [KeyMap.values, hentries, List.map_map]
    rfl
  constructor
  case packages =>
    refine KeyMap.ext ?_
    rw [KeyMap.mapValues_entries, hentries, Aggregates.ofParts,
      KeyMap.entries_ofList_of_forall₂ (m := m.resolved)]
    · simp [PackageParts.packagePlan]
    · rwa [List.map_map, List.forall₂_map_right_iff]
  case actions =>
    rw [hvalues, Aggregates.ofParts, List.flatMap_map, List.flatMap_def]
    refine congrArg List.flatten (List.map_congr_left fun x hx => ?_)
    obtain ⟨e, -, he⟩ := Except.mem_of_mapM_eq_ok hl hx
    exact Context.values_actions_of_partsAt he
  case sequences =>
    rw [hvalues, Aggregates.ofParts, List.flatMap_map, List.flatMap_def]
    refine congrArg List.flatten (List.map_congr_left fun x hx => ?_)
    obtain ⟨e, -, he⟩ := Except.mem_of_mapM_eq_ok hl hx
    exact Context.values_sequences_of_partsAt he
  case placed =>
    intro name q hq
    obtain ⟨x, hx, heq⟩ := List.mem_map.mp (KeyMap.mem_of_get?_ofList hq)
    cases heq
    obtain ⟨e, -, he⟩ := Except.mem_of_mapM_eq_ok hl hx
    have hplaced := Context.placed_of_partsAt he
    rwa [← hplaced.package] at hplaced
  case triggers => rfl
  case rules => rfl
  case routes => rfl
  case dependencies => rfl

/-- **A document has a plan if and only if** each of its sections can be composed over all
packages, and the plan gathers what the sections give.  This is so whatever is drawn for the
archives of directories; a directory that is packed for the plan and for its section is packed with
the same draws.

**Proof sketch.** Both ways come to the parts of packages.  Whether a package has parts depends
neither on other packages nor on the order of its sections, because composing an action leaves the
tree as it was found.  From the parts, the plan and the aggregates are put together without
fail. -/
theorem composePlan_gathers_aggregates [Host] (m : Manifest) (settings : Settings)
    (vars : Variables) (t : FileTree) :
    ((∃ plan, (m.composePlan settings vars).resultAt t = .ok plan) ↔
      ∃ a, m.Gives settings vars t a) ∧
    ∀ plan a, (m.composePlan settings vars).resultAt t = .ok plan →
      m.Gives settings vars t a → plan.Gathers a := by
  simp only [composePlan_resultAt, Except.map_eq_ok_iff]
  refine ⟨⟨?_, ?_⟩, ?_⟩
  · rintro ⟨plan, parts, hparts, -⟩
    exact ⟨_, gives_ofParts hparts⟩
  · rintro ⟨a, ha⟩
    obtain ⟨parts, hparts⟩ := exists_parts_of_gives ha
    exact ⟨_, parts, hparts, rfl⟩
  · rintro plan a ⟨parts, hparts, rfl⟩ ha
    rw [ha.unique (gives_ofParts hparts)]
    exact gathers_ofParts hparts

attribute [local instance] oneHost

/-- A document with two packages that declare the same trigger. -/
def shopManifest : Manifest where
  packages := .ofList
    [("cart", {
        actions := .single "pay" { runtime := "nodejs:20" }
        sequences := .single "buy" { actions := "pay" }
        triggers := .single "tick" {} }),
      ("shop", { triggers := .single "tick" { feed := "/whisk.system/alarms" } })]

/-- Both packages are composed, and the plan gathers what their sections give. -/
theorem shopManifest_gathered :
    ∃ plan a, (shopManifest.composePlan {} {}).resultAt default = .ok plan ∧
      shopManifest.Gives {} {} default a ∧ plan.Gathers a := by
  obtain ⟨plan, hplan⟩ := Except.exists_of_isOk
    (r := (shopManifest.composePlan {} {}).resultAt default) (by decide +kernel)
  obtain ⟨hsucceeds, hgathers⟩ := composePlan_gathers_aggregates shopManifest {} {} default
  obtain ⟨a, ha⟩ := hsucceeds.mp ⟨plan, hplan⟩
  exact ⟨plan, a, hplan, ha, hgathers plan a hplan ha⟩

end Manifest

end DeployPlan
