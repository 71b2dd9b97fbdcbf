import DeployPlan.Proofs.Override.Frame
import DeployPlan.Proofs.Revision

/-!
# What an override does

The three passes over a plan come to one change of each entity, which can be told from the plan
before the override, and so can the failure that ends it.

## Main definitions

* `Override.reached` — the packages of a descriptor that are looked up in a plan.
* `Override.overridden` — a plan after an override, entity by entity.
* `Override.addressed` — the entities that a descriptor addresses, with the annotations that it
  gives them, in the order in which they are checked.
* `Override.absentKeys` — the annotations that an entity is given but does not have.

## Main results

* `Override.reviseEntity_meets` — the specification of the revision of an entity.
* `Override.revisePackages_meets`, `reviseActions_meets`, `reviseTriggers_meets` — those of the
  passes.
* `Override.apply_meets` — the specification of an override, from that of its passes.
-/

set_option autoImplicit false

namespace DeployPlan

namespace Override

open KeyValues

/-! ## Annotations -/

/-- Replaces the values of annotations; of two entries under one key, that of the first. -/
def withValues (given : KeyMap Yaml.Value) (list : List KeyValue) : List KeyValue :=
  given.entries.foldl (fun list e => replaceFirst e.1 e.2.toJson list) list

/-- What survives each value that is given holds after all of them. -/
theorem withValues_induction {P : List KeyValue → Prop} {given : KeyMap Yaml.Value}
    {list : List KeyValue} (h : P list)
    (step : ∀ key v, given.get? key = some v → ∀ l, P l → P (replaceFirst key v.toJson l)) :
    P (withValues given list) := by
  have hentries : ∀ e ∈ given.entries, given.get? e.1 = some e.2 := fun e he =>
    KeyMap.mem_entries_iff.mp he
  rw [withValues]
  revert hentries
  generalize given.entries = entries
  induction entries generalizing list with
  | nil => exact fun _ => h
  | cons e entries ih =>
    intro hentries
    refine ih (step e.1 e.2 (hentries e List.mem_cons_self) list h) fun e' he' => ?_
    exact hentries e' (List.mem_cons_of_mem e he')

/-- The keys of annotations that are given but have no entry, in order. -/
def absentKeys (given : KeyMap Yaml.Value) (list : List KeyValue) : List String :=
  given.keys.filter fun key => !has key list

/-- The failures that lie in wait in an entity: one for each absent key. -/
def failures (path : String) (given : KeyMap Yaml.Value) (list : List KeyValue) : List Failure :=
  (absentKeys given list).map (Failure.unknownAnnotationKey path)

/-- The specification of one replaced value. -/
theorem setAnnotationAt_meets (path key : String) (v : Yaml.Value) :
    (setAnnotationAt path key v).Meets (fun l l' => keys l' = keys l)
      (fun l => if has key l then [] else [.unknownAnnotationKey path key])
      (replaceFirst key v.toJson) where
  keeps l := by
    rw [setAnnotationAt]
    split
    · exact keys_replaceFirst key v.toJson l
    · rfl
  result_eq l := by
    rw [setAnnotationAt]
    split <;> rfl
  final_eq l hl := by
    have hhas : has key l = true := by
      by_contra h
      simp [h] at hl
    rw [setAnnotationAt, if_pos hhas]
  failures_eq l l' h := by rw [has_congr h]

/-- The specification of all replaced values of an entity. -/
theorem setAnnotations_meets (path : String) (given : KeyMap Yaml.Value) :
    (setAnnotations path given).Meets (fun l l' => keys l' = keys l) (failures path given)
      (withValues given) := by
  have h := Revision.Meets.all (R := fun l l' => keys l' = keys l) (l := given.entries)
    (fun _ => rfl) (fun _ _ _ h h' => h'.trans h) fun e _ => setAnnotationAt_meets path e.1 e.2
  refine h.congr (fun l => ?_) fun _ => rfl
  rw [failures, absentKeys, KeyMap.keys]
  induction given.entries with
  | nil => rfl
  | cons e entries ih =>
    rw [List.flatMap_cons, ← ih]
    by_cases he : has e.1 l <;> simp [he]

/-- The specification of merged inputs: they never fail. -/
theorem setInputs_meets (vars : Variables) (inputs : KeyMap ParamSpec) :
    (setInputs vars inputs).Meets InputsMerged (fun _ => []) (mergeInputs vars inputs) where
  keeps _ := .single ⟨vars, inputs, rfl⟩
  result_eq _ := rfl
  final_eq _ _ := rfl
  failures_eq _ _ _ := rfl

/-! ## Entities -/

section Entities

variable {σ : Type} [Entity σ] (vars : Variables) (path : String)

/-- An entity after an override: inputs are merged into its parameters, and the values of its
annotations are replaced. -/
def overriddenEntity (inputs : KeyMap ParamSpec) (given : KeyMap Yaml.Value) (s : σ) : σ :=
  Entity.withLists (mergeInputs vars inputs (Entity.parameters s))
    (withValues given (Entity.annotations s)) s

/-- The revision of an entity: first its parameters, then its annotations. -/
def reviseEntity (inputs : KeyMap ParamSpec) (given : KeyMap Yaml.Value) : Revision σ :=
  .andThen
    (.onPart Entity.parameters (fun l s => Entity.withLists l (Entity.annotations s) s)
      (setInputs vars inputs))
    (.onPart Entity.annotations (fun l s => Entity.withLists (Entity.parameters s) l s)
      (setAnnotations path given))

/-- **The specification of an entity's revision.** -/
theorem reviseEntity_meets (inputs : KeyMap ParamSpec) (given : KeyMap Yaml.Value) :
    (reviseEntity vars path inputs given).Meets (@Entity.Revised σ _)
      (fun s => failures path given (Entity.annotations s))
      (overriddenEntity vars inputs given) := by
  have hinputs := (setInputs_meets vars inputs).onPart (@Entity.Revised σ _) Entity.parameters
    (fun l s => Entity.withLists l (Entity.annotations s) s)
    (fun _ _ h => h.parameters) fun _ _ h => Entity.revised_parameters h
  have hgiven := (setAnnotations_meets path given).onPart (@Entity.Revised σ _) Entity.annotations
    (fun l s => Entity.withLists (Entity.parameters s) l s)
    (fun _ _ h => h.annotations) fun _ _ h => Entity.revised_annotations h
  have h := hinputs.andThen Entity.Revised.trans hgiven
  simp only [Entity.parameters_withLists, Entity.annotations_withLists,
    Entity.withLists_withLists, List.nil_append] at h
  exact h

/-- The specification of the revision of a package. -/
theorem revisePackage_meets (spec : PackageSpec) :
    (revisePackage vars path spec).Meets (@Entity.Revised Package _)
      (fun p => failures path spec.annotations p.annotations)
      (overriddenEntity vars spec.inputs spec.annotations) :=
  reviseEntity_meets vars path spec.inputs spec.annotations

/-- An action is revised inside its record, and so is the record. -/
theorem reviseAction_meets (spec : ActionSpec) :
    (Revision.onPart ActionRecord.action (fun a r => { r with action := a })
        (reviseAction vars path spec)).Meets (@Entity.Revised ActionRecord _)
      (fun r => failures path spec.annotations r.action.annotations)
      (overriddenEntity vars spec.inputs spec.annotations) := by
  rw [reviseAction, Revision.onPart_andThen ActionRecord.action
    (fun a r => { r with action := a }) (fun _ _ => rfl) fun _ _ _ => rfl]
  exact reviseEntity_meets vars path spec.inputs spec.annotations

/-- The specification of the revision of a trigger. -/
theorem reviseTrigger_meets (spec : TriggerSpec) :
    (reviseTrigger vars path spec).Meets (@Entity.Revised Trigger _)
      (fun t => failures path spec.annotations t.annotations)
      (overriddenEntity vars spec.inputs spec.annotations) :=
  reviseEntity_meets vars path spec.inputs spec.annotations

end Entities

/-! ## Passes -/

section Passes

variable (settings : Settings) (vars : Variables) (path : String)

/-- The packages that are looked up: those of the plan, up to the first that the plan lacks
unless such packages are passed over. -/
def reached (specs : List (String × PackageSpec)) (packages : KeyMap PackagePlan) :
    List (String × PackageSpec) :=
  if settings.skipUnmatchedPackages then specs.filter fun e => packages.contains e.1
  else specs.takeWhile fun e => packages.contains e.1

/-- Which packages are looked up depends only on the names of packages. -/
theorem reached_congr (specs : List (String × PackageSpec))
    {packages packages' : KeyMap PackagePlan}
    (h : ∀ name, packages'.contains name = packages.contains name) :
    reached settings specs packages' = reached settings specs packages := by
  simp only [reached, h]

/-- A package of the plan is looked up. -/
theorem reached_cons_of_contains {e : String × PackageSpec} {packages : KeyMap PackagePlan}
    (h : packages.contains e.1 = true) (specs : List (String × PackageSpec)) :
    reached settings (e :: specs) packages = e :: reached settings specs packages := by
  rw [reached, reached, List.filter_cons, List.takeWhile_cons, if_pos h, h]
  split <;> rfl

/-- A package that the plan lacks is passed over or ends the search. -/
theorem reached_cons_of_not_contains {e : String × PackageSpec} {packages : KeyMap PackagePlan}
    (h : packages.contains e.1 = false) (specs : List (String × PackageSpec)) :
    reached settings (e :: specs) packages =
      if settings.skipUnmatchedPackages then reached settings specs packages else [] := by
  rw [reached, reached, List.filter_cons, List.takeWhile_cons, h]
  split <;> rfl

/-- **The specification of a pass over packages**, from that of what it does with each.

**Proof sketch.** Induction on the packages of the descriptor.  If the plan has the first one, or
packages that it lacks are passed over, the first is revised and then the others; otherwise
nothing happens.  Whether the plan has it does not depend on what revisions change. -/
theorem eachPackage_meets (missing : String → List Event)
    {revise : String → PackageSpec → Revision PackagePlan}
    {f : PackageSpec → PackagePlan → List Failure} {g : PackageSpec → PackagePlan → PackagePlan}
    (h : ∀ name spec, (revise name spec).Meets PackagePlan.Revised (f spec) (g spec))
    (specs : List (String × PackageSpec)) :
    (eachPackage settings missing revise specs).Meets (KeyMap.Rel PackagePlan.Revised)
      (fun m => (reached settings specs m).flatMap fun e => (m.get? e.1).elim [] (f e.2))
      (fun m => (reached settings specs m).foldl (fun m e => m.modify e.1 (g e.2)) m) := by
  have hrefl := KeyMap.Rel.refl PackagePlan.Revised.refl
  have htrans := fun m n o => KeyMap.Rel.trans (m := m) (n := n) (o := o)
    PackagePlan.Revised.trans
  induction specs with
  | nil =>
    have hnil : ∀ m, reached settings [] m = [] := fun m => by simp [reached]
    simp only [hnil]
    exact Revision.Meets.skip hrefl
  | cons e specs ih =>
    obtain ⟨name, spec⟩ := e
    have both := ((h name spec).atKey PackagePlan.Revised.refl name (missing name)).andThen
      htrans ih
    have step := both.onlyIf hrefl
      (fun m => m.contains name || settings.skipUnmatchedPackages)
      (fun m m' hm => by rw [hm.contains name]) (missing name)
    refine step.congr (fun m => ?_) fun m => ?_
    · cases hm : m.contains name with
      | true =>
        rw [reached_cons_of_contains settings hm]
        rfl
      | false =>
        rw [reached_cons_of_not_contains settings hm, KeyMap.contains_eq_false_iff.mp hm]
        cases settings.skipUnmatchedPackages <;> rfl
    · have hcongr : ∀ f : PackagePlan → PackagePlan,
          reached settings specs (m.modify name f) = reached settings specs m := fun f =>
        reached_congr settings specs fun k => KeyMap.contains_modify m k name f
      cases hm : m.contains name with
      | true =>
        rw [reached_cons_of_contains settings hm, hcongr]
        rfl
      | false =>
        rw [reached_cons_of_not_contains settings hm,
          KeyMap.modify_of_get?_eq_none (KeyMap.contains_eq_false_iff.mp hm)]
        cases settings.skipUnmatchedPackages <;> rfl

end Passes

/-! ## Plans -/

section Plans

variable (settings : Settings) (vars : Variables)

/-- A package with its actions after an override. -/
def overriddenPackagePlan (spec : PackageSpec) (q : PackagePlan) : PackagePlan :=
  { q with
    package := overriddenEntity vars spec.inputs spec.annotations q.package
    actions := q.actions.mapWithKey fun name r =>
      match spec.actions.get? name with
      | some action => overriddenEntity vars action.inputs action.annotations r
      | none => r }

/-- A trigger after an override: every package of the descriptor that names it, in turn. -/
def overriddenTrigger (specs : List (String × PackageSpec)) (name : String) (t : Trigger) :
    Trigger :=
  (specs.filterMap fun e => e.2.triggers.get? name).foldl
    (fun t trigger => overriddenEntity vars trigger.inputs trigger.annotations t) t

/-- **A plan after an override.**  The packages that are looked up are overridden with their
actions, and the triggers by all packages of the descriptor, looked up or not. -/
def overridden (descriptor : Manifest) (plan : Plan) : Plan :=
  { plan with
    packages := plan.packages.mapWithKey fun name q =>
      match Entries.find? name (reached settings descriptor.resolved.entries plan.packages) with
      | some spec => overriddenPackagePlan vars spec q
      | none => q
    triggers := plan.triggers.mapWithKey (overriddenTrigger vars descriptor.resolved.entries) }

/-- The annotations that an entity is given, and those that it has. -/
abbrev Address : Type := KeyMap Yaml.Value × List KeyValue

/-- The packages that are looked up. -/
def addressedPackages (specs : List (String × PackageSpec)) (packages : KeyMap PackagePlan) :
    List Address :=
  specs.flatMap fun e => (packages.get? e.1).elim [] fun q =>
    [(e.2.annotations, q.package.annotations)]

/-- The actions of the packages that are looked up, if the plan has them. -/
def addressedActions (specs : List (String × PackageSpec)) (packages : KeyMap PackagePlan) :
    List Address :=
  specs.flatMap fun e => (packages.get? e.1).elim [] fun q =>
    e.2.actions.entries.flatMap fun a => (q.actions.get? a.1).elim [] fun r =>
      [(a.2.annotations, r.action.annotations)]

/-- The triggers of all packages, if the plan has them. -/
def addressedTriggers (specs : List (String × PackageSpec)) (triggers : KeyMap Trigger) :
    List Address :=
  specs.flatMap fun e => e.2.triggers.entries.flatMap fun t =>
    (triggers.get? t.1).elim [] fun trigger => [(t.2.annotations, trigger.annotations)]

/-- **The entities that a descriptor addresses** in a plan, in the order in which they are
checked. -/
def addressed (descriptor : Manifest) (plan : Plan) : List Address :=
  let specs := descriptor.resolved.entries
  addressedPackages (reached settings specs plan.packages) plan.packages ++
    addressedActions (reached settings specs plan.packages) plan.packages ++
    addressedTriggers specs plan.triggers

end Plans

/-! ## The specifications of the passes -/

section Specifications

variable (settings : Settings) (vars : Variables) (path : String)

/-- The failures that lie in wait in entities. -/
def failuresAt (addresses : List Address) : List Failure :=
  addresses.flatMap fun a => failures path a.1 a.2

/-- Failures of what is there, if anything is. -/
theorem failuresAt_elim {α : Type} (o : Option α) (f : α → List Address) :
    failuresAt path (o.elim [] f) = o.elim [] fun x => failuresAt path (f x) := by
  cases o <;> rfl

/-- Failures of one entity. -/
theorem failuresAt_single (given : KeyMap Yaml.Value) (list : List KeyValue) :
    failuresAt path [(given, list)] = failures path given list := by
  simp [failuresAt]

/-- Failures of many lists of entities. -/
theorem failuresAt_flatMap {α : Type} (l : List α) (f : α → List Address) :
    failuresAt path (l.flatMap f) = l.flatMap fun x => failuresAt path (f x) := by
  rw [failuresAt, List.flatMap_assoc]
  rfl

/-- Packages are looked up in the order of the descriptor. -/
theorem reached_sublist (specs : List (String × PackageSpec)) (packages : KeyMap PackagePlan) :
    (reached settings specs packages).Sublist specs := by
  rw [reached]
  split
  · exact List.filter_sublist
  · exact List.takeWhile_sublist _

/-- What a pass makes of packages that are looked up, package by package. -/
theorem foldl_reached {specs : List (String × PackageSpec)} (h : Entries.Sorted specs)
    (g : PackageSpec → PackagePlan → PackagePlan) (m : KeyMap PackagePlan) :
    (reached settings specs m).foldl (fun m e => m.modify e.1 (g e.2)) m =
      m.mapWithKey fun name q => match Entries.find? name (reached settings specs m) with
        | some spec => g spec q
        | none => q := by
  rw [KeyMap.foldl_modify_of_sorted (h.sublist (reached_sublist settings specs m))]
  refine KeyMap.mapWithKey_congr fun name q _ => ?_
  cases Entries.find? name (reached settings specs m) <;> rfl

/-- **The first pass.** -/
theorem revisePackages_meets {specs : List (String × PackageSpec)} (h : Entries.Sorted specs) :
    (revisePackages settings vars path specs).Meets (KeyMap.Rel PackagePlan.Revised)
      (fun m => failuresAt path (addressedPackages (reached settings specs m) m))
      (fun m => m.mapWithKey fun name q =>
        match Entries.find? name (reached settings specs m) with
        | some spec =>
          { q with package := overriddenEntity vars spec.inputs spec.annotations q.package }
        | none => q) := by
  have hpackage := fun (_ : String) (spec : PackageSpec) =>
    (revisePackage_meets vars path spec).onPart PackagePlan.Revised
      PackagePlan.package (fun p q => { q with package := p }) (fun _ _ h => h.package)
      fun q _ h => ⟨h, KeyMap.Rel.refl Entity.Revised.refl q.actions, rfl⟩
  refine (eachPackage_meets settings (fun name => [unmatchedPackage name]) hpackage specs).congr
    (fun m => ?_) fun m => (foldl_reached settings h _ m).symm
  simp only [addressedPackages, failuresAt_flatMap, failuresAt_elim, failuresAt_single]

/-- The specification of the revision of a package's actions. -/
theorem revisePackageActions_meets (name : String) (spec : PackageSpec) :
    (revisePackageActions vars path name spec).Meets PackagePlan.Revised
      (fun q => spec.actions.entries.flatMap fun a => (q.actions.get? a.1).elim [] fun r =>
        failures path a.2.annotations r.action.annotations)
      (fun q => { q with actions := q.actions.mapWithKey fun name r =>
        match spec.actions.get? name with
        | some action => overriddenEntity vars action.inputs action.annotations r
        | none => r }) := by
  have hactions := Revision.Meets.all (l := spec.actions.entries)
    (KeyMap.Rel.refl (@Entity.Revised.refl ActionRecord _))
    (fun m n o => KeyMap.Rel.trans (m := m) (n := n) (o := o) Entity.Revised.trans)
    fun a _ => (reviseAction_meets vars path a.2).atKey
      Entity.Revised.refl a.1 [unmatchedEntity "action" (name ++ "/" ++ a.1)]
  refine (hactions.onPart PackagePlan.Revised PackagePlan.actions
    (fun m q => { q with actions := m }) (fun _ _ h => h.actions)
    fun q _ h => ⟨.refl q.package, h, rfl⟩).congr (fun q => rfl) fun q => ?_
  have hfold := KeyMap.foldl_modify_of_sorted spec.actions.sorted
    (fun a (r : ActionRecord) => overriddenEntity vars a.inputs a.annotations r) q.actions
  rw [hfold]
  congr 1
  refine KeyMap.mapWithKey_congr fun name r _ => ?_
  rw [KeyMap.get?]
  cases Entries.find? name spec.actions.entries <;> rfl

/-- **The second pass.** -/
theorem reviseActions_meets {specs : List (String × PackageSpec)} (h : Entries.Sorted specs) :
    (reviseActions settings vars path specs).Meets (KeyMap.Rel PackagePlan.Revised)
      (fun m => failuresAt path (addressedActions (reached settings specs m) m))
      (fun m => m.mapWithKey fun name q =>
        match Entries.find? name (reached settings specs m) with
        | some spec => { q with actions := q.actions.mapWithKey fun name r =>
            match spec.actions.get? name with
            | some action => overriddenEntity vars action.inputs action.annotations r
            | none => r }
        | none => q) := by
  refine (eachPackage_meets settings (fun _ => [])
    (revisePackageActions_meets vars path) specs).congr (fun m => ?_)
    fun m => (foldl_reached settings h _ m).symm
  simp only [addressedActions, failuresAt_flatMap, failuresAt_elim, failuresAt_single]

/-- What all packages say about the trigger of a name, in turn. -/
theorem filter_triggers (specs : List (String × PackageSpec)) (name : String) :
    (specs.flatMap fun e => e.2.triggers.entries).filter (fun t => t.1 == name) =
      (specs.filterMap fun e => e.2.triggers.get? name).map fun trigger => (name, trigger) := by
  induction specs with
  | nil => rfl
  | cons e specs ih =>
    rw [List.flatMap_cons, List.filter_append, e.2.triggers.sorted.filter_key, ih,
      List.filterMap_cons, KeyMap.get?]
    cases Entries.find? name e.2.triggers.entries <;> rfl

/-- **The third pass.** -/
theorem reviseTriggers_meets (specs : List (String × PackageSpec)) :
    (reviseTriggers vars path specs).Meets (KeyMap.Rel Entity.Revised)
      (fun m => failuresAt path (addressedTriggers specs m))
      (fun m => m.mapWithKey (overriddenTrigger vars specs)) := by
  have htriggers := Revision.Meets.all (l := specs.flatMap fun e => e.2.triggers.entries)
    (KeyMap.Rel.refl (@Entity.Revised.refl Trigger _))
    (fun m n o => KeyMap.Rel.trans (m := m) (n := n) (o := o) Entity.Revised.trans)
    fun t _ => (reviseTrigger_meets vars path t.2).atKey
      Entity.Revised.refl t.1 [unmatchedEntity "trigger" t.1]
  refine htriggers.congr (fun m => ?_) fun m => ?_
  · simp only [addressedTriggers, failuresAt_flatMap, failuresAt_elim, failuresAt_single,
      List.flatMap_assoc]
  · have hfold := KeyMap.foldl_modify (specs.flatMap fun e => e.2.triggers.entries)
      (fun spec (t : Trigger) => overriddenEntity vars spec.inputs spec.annotations t) m
    rw [hfold]
    refine KeyMap.mapWithKey_congr fun name t _ => ?_
    rw [filter_triggers, List.foldl_map]
    rfl

/-- Names of packages are the same before and after a pass. -/
theorem reached_mapWithKey (specs : List (String × PackageSpec)) (m : KeyMap PackagePlan)
    (f : String → PackagePlan → PackagePlan) :
    reached settings specs (m.mapWithKey f) = reached settings specs m :=
  reached_congr settings specs fun name => KeyMap.contains_mapWithKey m f name

/-- **The specification of an override.**

**Proof sketch.** The three passes in turn, each on its part of the plan.  The packages that the
second pass looks up are those of the first, whose names are the same after it, so that the two
passes make one change of each package. -/
theorem apply_meets (descriptor : Manifest) :
    (apply settings vars descriptor).Meets Plan.Revised
      (fun p => failuresAt descriptor.path (addressed settings descriptor p))
      (overridden settings vars descriptor) := by
  have hsorted := descriptor.resolved.sorted
  have onPackages := fun {r : Revision (KeyMap PackagePlan)} {f g}
      (h : r.Meets (KeyMap.Rel PackagePlan.Revised) f g) =>
    h.onPart Plan.Revised Plan.packages (fun m p => { p with packages := m })
      (fun _ _ h => h.packages)
      fun p _ h => ⟨h, KeyMap.Rel.refl Entity.Revised.refl p.triggers, rfl, rfl, rfl⟩
  have hpackages := onPackages (revisePackages_meets settings vars descriptor.path hsorted)
  have hactions := onPackages (reviseActions_meets settings vars descriptor.path hsorted)
  have htriggers := (reviseTriggers_meets vars descriptor.path descriptor.resolved.entries).onPart
    Plan.Revised Plan.triggers (fun m p => { p with triggers := m }) (fun _ _ h => h.triggers)
    fun p _ h => ⟨KeyMap.Rel.refl PackagePlan.Revised.refl p.packages, h, rfl, rfl, rfl⟩
  have hall := (Revision.Meets.saying Plan.Revised.refl (sourceEvents descriptor)).andThen
    Plan.Revised.trans (hpackages.andThen Plan.Revised.trans (hactions.andThen Plan.Revised.trans
      (htriggers.andThen Plan.Revised.trans (Revision.Meets.skip Plan.Revised.refl))))
  refine hall.congr (fun p => ?_) fun p => ?_
  · simp [addressed, failuresAt, List.append_assoc]
  · simp only [overridden, id, reached_mapWithKey, KeyMap.mapWithKey_mapWithKey]
    congr 1
    refine KeyMap.mapWithKey_congr fun name q _ => ?_
    cases Entries.find? name (reached settings descriptor.resolved.entries p.packages) <;> rfl

end Specifications

end Override

end DeployPlan
