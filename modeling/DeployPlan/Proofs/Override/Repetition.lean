import DeployPlan.Proofs.Override.Effect
import DeployPlan.Proofs.Settling
import Mathlib.Data.List.Induction

/-!
# Overriding twice

An override that is repeated changes nothing more, and ends as it did the first time, also if that
was a failure halfway.  A trigger that two packages of a descriptor name gets its inputs from both
in turn, and the first of them undoes what the second one did; but what both do together is one
merge, and one that settles.

## Main definitions

* `Override.MergeChange`, `Override.WriteChange` — what overrides do to parameters and to
  annotations.
* `Override.SamePlanShape`, `Override.PlanChange` — the shape of a plan, and what overrides do to
  it.

## Main results

* `Override.addMissing_addMissing` — merging twice is merging once, with what was merged before.
* `Override.writeAll_writeAll` — values that are written again change nothing more.
* `Override.apply_repeated` — nor does an override that is repeated.
-/

set_option autoImplicit false

namespace DeployPlan

namespace Override

open KeyValues

/-! ## Parameters -/

/-- The keys after merging. -/
theorem has_addMissing (key : String) (entries others : List KeyValue) :
    has key (addMissing entries others) = (has key entries || has key others) := by
  induction others generalizing entries with
  | nil => simp [addMissing, has]
  | cons kv others ih =>
    have hstep : has key (addMissing entries (kv :: others)) =
        (has key (if has kv.key entries then entries else entries ++ [kv]) || has key others) :=
      ih _
    rw [hstep]
    by_cases hkv : has kv.key entries = true
    · rw [if_pos hkv]
      by_cases hkey : kv.key = key
      · subst hkey
        simp [hkv]
      · have hne : (kv.key == key) = false := by simpa using hkey
        simp [has, hne]
    · rw [if_neg hkv]
      simp [has, Bool.or_assoc]

/-- What has its keys there already adds nothing. -/
theorem addMissing_of_has {entries others : List KeyValue}
    (h : ∀ kv ∈ others, has kv.key entries = true) : addMissing entries others = entries := by
  induction others with
  | nil => rfl
  | cons kv others ih =>
    have hkv := h kv List.mem_cons_self
    show addMissing (if has kv.key entries then entries else entries ++ [kv]) others = entries
    rw [if_pos hkv]
    exact ih fun kv' hkv' => h kv' (List.mem_cons_of_mem _ hkv')

/-- **Merging twice is merging once**, with what was merged before behind what is merged now.

**Proof sketch.** Induction on the entries at the back.  One that adds nothing in the first place
adds nothing to the longer list either. -/
theorem addMissing_addMissing (now before others : List KeyValue) :
    addMissing now (addMissing before others) = addMissing (addMissing now before) others := by
  induction others generalizing before with
  | nil => rfl
  | cons kv others ih =>
    show addMissing now (addMissing (if has kv.key before then before else before ++ [kv]) others) =
      addMissing (if has kv.key (addMissing now before) then addMissing now before
        else addMissing now before ++ [kv]) others
    rw [ih]
    congr 1
    by_cases hkv : has kv.key before = true
    · rw [if_pos hkv, if_pos (by rw [has_addMissing, hkv, Bool.or_true])]
    · rw [if_neg hkv]
      exact List.foldl_append

/-- Entries that are merged, or nothing at all. -/
def MergeChange (f : List KeyValue → List KeyValue) : Prop :=
  f = id ∨ ∃ entries, f = addMissing entries

/-- Merging settles parameters, whatever their keys. -/
theorem settling_merge : Settling (fun _ _ => True) MergeChange where
  equivalence := ⟨fun _ => trivial, fun _ => trivial, fun _ _ => trivial⟩
  id := .inl rfl
  comp := by
    rintro f g (rfl | ⟨before, rfl⟩) (rfl | ⟨now, rfl⟩)
    · exact .inl rfl
    · exact .inr ⟨now, rfl⟩
    · exact .inr ⟨before, rfl⟩
    · exact .inr ⟨_, funext fun others => addMissing_addMissing now before others⟩
  idem := by
    rintro f (rfl | ⟨entries, rfl⟩) l
    · rfl
    · have hself : addMissing entries entries = entries :=
        addMissing_of_has fun kv hkv => has_iff.mpr (List.mem_map_of_mem hkv)
      rw [addMissing_addMissing, hself]
  keeps _ _ _ := trivial

/-- Inputs are merged, unless there are none. -/
theorem setInputs_actsBy (vars : Variables) (inputs : KeyMap ParamSpec) :
    (setInputs vars inputs).ActsBy (fun _ _ => True) MergeChange := by
  intro l
  refine ⟨mergeInputs vars inputs, ?_, fun _ _ => ⟨rfl, rfl⟩⟩
  cases hempty : inputs.isEmpty with
  | true => exact .inl (funext fun l => by rw [mergeInputs, if_pos hempty]; rfl)
  | false => exact .inr ⟨inputEntries vars inputs, funext fun l => by simp [mergeInputs, hempty]⟩

/-! ## Annotations -/

/-- Writes values in turn, each to the first entry under its key. -/
def writeAll (writes : List (String × Json)) (list : List KeyValue) : List KeyValue :=
  writes.foldl (fun list e => replaceFirst e.1 e.2 list) list

/-- The keys stay. -/
theorem keys_writeAll (writes : List (String × Json)) (list : List KeyValue) :
    keys (writeAll writes list) = keys list := by
  induction writes generalizing list with
  | nil => rfl
  | cons e writes ih => exact (ih _).trans (keys_replaceFirst e.1 e.2 list)

/-- Of two values under one key the later stays. -/
theorem replaceFirst_replaceFirst (key : String) (v v' : Json) (list : List KeyValue) :
    replaceFirst key v (replaceFirst key v' list) = replaceFirst key v list := by
  induction list with
  | nil => rfl
  | cons kv list ih =>
    by_cases h : kv.key = key <;> simp [replaceFirst, h, ih]

/-- Values under different keys can be written in either order. -/
theorem replaceFirst_comm {key key' : String} (h : key ≠ key') (v v' : Json)
    (list : List KeyValue) :
    replaceFirst key v (replaceFirst key' v' list) =
      replaceFirst key' v' (replaceFirst key v list) := by
  induction list with
  | nil => rfl
  | cons kv list ih =>
    by_cases hk : kv.key = key
    · have hk' : kv.key ≠ key' := hk ▸ h
      simp [replaceFirst, hk, h]
    · by_cases hk' : kv.key = key'
      · simp [replaceFirst, hk', h.symm]
      · simp [replaceFirst, hk, hk', ih]

/-- A value counts for nothing if another is written under its key in the end. -/
theorem replaceFirst_writeAll (key : String) (v : Json) (writes : List (String × Json))
    (list : List KeyValue) :
    replaceFirst key v (writeAll writes (replaceFirst key v list)) =
      replaceFirst key v (writeAll writes list) := by
  induction writes generalizing list with
  | nil => exact replaceFirst_replaceFirst key v v list
  | cons e writes ih =>
    obtain ⟨k, w⟩ := e
    show replaceFirst key v (writeAll writes (replaceFirst k w (replaceFirst key v list))) =
      replaceFirst key v (writeAll writes (replaceFirst k w list))
    by_cases h : k = key
    · subst h
      rw [replaceFirst_replaceFirst]
    · rw [replaceFirst_comm h, ih]

/-- **Values that are written again change nothing more.**

**Proof sketch.** Induction on the writes from the last one back: under the last write, the same
write at the end of the first round counts for nothing, and what is left are two rounds of the
others. -/
theorem writeAll_writeAll (writes : List (String × Json)) (list : List KeyValue) :
    writeAll writes (writeAll writes list) = writeAll writes list := by
  induction writes using List.reverseRecOn generalizing list with
  | nil => rfl
  | append_singleton writes e ih =>
    have hlast : ∀ l, writeAll (writes ++ [e]) l = replaceFirst e.1 e.2 (writeAll writes l) :=
      fun l => List.foldl_append
    rw [hlast, hlast, replaceFirst_writeAll, ih]

/-- Values that are written in turn. -/
def WriteChange (f : List KeyValue → List KeyValue) : Prop := ∃ writes, f = writeAll writes

/-- Writing values settles annotations of given keys. -/
theorem settling_write : Settling (fun l l' => keys l = keys l') WriteChange where
  equivalence := ⟨fun _ => rfl, Eq.symm, Eq.trans⟩
  id := ⟨[], rfl⟩
  comp := by
    rintro _ _ ⟨writes, rfl⟩ ⟨writes', rfl⟩
    exact ⟨writes ++ writes', funext fun l => List.foldl_append.symm⟩
  idem := by
    rintro _ ⟨writes, rfl⟩ l
    exact writeAll_writeAll writes l
  keeps := by
    rintro _ ⟨writes, rfl⟩ l
    exact (keys_writeAll writes l).symm

/-- Whether a value is written depends only on the keys. -/
theorem setAnnotationAt_actsBy (path key : String) (v : Yaml.Value) :
    (setAnnotationAt path key v).ActsBy (fun l l' => keys l = keys l') WriteChange := by
  intro l
  cases hl : has key l with
  | true =>
    refine ⟨replaceFirst key v.toJson, ⟨[(key, v.toJson)], rfl⟩, fun l' hkeys => ?_⟩
    simp only [setAnnotationAt, has_congr hkeys.symm key, hl, if_true]
    exact ⟨trivial, trivial⟩
  | false =>
    refine ⟨id, ⟨[], rfl⟩, fun l' hkeys => ?_⟩
    simp only [setAnnotationAt, has_congr hkeys.symm key, hl]
    exact ⟨rfl, rfl⟩

/-- The values of annotations are written in turn. -/
theorem setAnnotations_actsBy (path : String) (given : KeyMap Yaml.Value) :
    (setAnnotations path given).ActsBy (fun l l' => keys l = keys l') WriteChange :=
  .all settling_write fun e _ => setAnnotationAt_actsBy path e.1 e.2

/-! ## Entities -/

section Entities

/-- The parameters and the annotations of an entity. -/
def listParts (σ : Type) [Entity σ] : TwoParts σ (List KeyValue) (List KeyValue) where
  first := Entity.parameters
  second := Entity.annotations
  put := Entity.withLists
  first_put := Entity.parameters_withLists
  second_put := Entity.annotations_withLists
  put_put := Entity.withLists_withLists
  put_self := Entity.withLists_self

/-- Two entities with the same keys of annotations. -/
abbrev SameShape (σ : Type) [Entity σ] : σ → σ → Prop :=
  Settling.BothShapes (listParts σ) (fun _ _ => True) fun l l' => keys l = keys l'

/-- Merged parameters and written annotations. -/
abbrev EntityChange (σ : Type) [Entity σ] : (σ → σ) → Prop :=
  Settling.BothChanges (listParts σ) MergeChange WriteChange

/-- The changes of an entity settle it. -/
theorem settling_entity (σ : Type) [Entity σ] : Settling (SameShape σ) (EntityChange σ) :=
  .both _ settling_merge settling_write

variable (vars : Variables) (path : String)

/-- The revision of an entity: first its parameters, then its annotations. -/
theorem reviseEntity_actsBy (σ : Type) [Entity σ] (inputs : KeyMap ParamSpec)
    (given : KeyMap Yaml.Value) :
    (reviseEntity vars path inputs given).ActsBy (SameShape σ) (EntityChange σ) :=
  .andThen (settling_entity σ)
    (.onFirst (listParts σ) settling_write (setInputs_actsBy vars inputs))
    (.onSecond (listParts σ) settling_merge (setAnnotations_actsBy path given))

/-- An action is revised inside its record, and so is the record. -/
theorem reviseAction_actsBy (spec : ActionSpec) :
    (Revision.onPart ActionRecord.action (fun a r => { r with action := a })
        (reviseAction vars path spec)).ActsBy
      (SameShape ActionRecord) (EntityChange ActionRecord) := by
  rw [reviseAction, Revision.onPart_andThen ActionRecord.action
    (fun a r => { r with action := a }) (fun _ _ => rfl) fun _ _ _ => rfl]
  exact reviseEntity_actsBy vars path ActionRecord spec.inputs spec.annotations

end Entities

/-! ## Plans -/

section Plans

/-- A package and its actions. -/
def packageParts : TwoParts PackagePlan Package (KeyMap ActionRecord) where
  first := PackagePlan.package
  second := PackagePlan.actions
  put p m q := { q with package := p, actions := m }
  first_put _ _ _ := rfl
  second_put _ _ _ := rfl
  put_put _ _ _ _ _ := rfl
  put_self _ := rfl

/-- The packages and the triggers of a plan. -/
def planParts : TwoParts Plan (KeyMap PackagePlan) (KeyMap Trigger) where
  first := Plan.packages
  second := Plan.triggers
  put m n p := { p with packages := m, triggers := n }
  first_put _ _ _ := rfl
  second_put _ _ _ := rfl
  put_put _ _ _ _ _ := rfl
  put_self _ := rfl

/-- Two packages with the same actions, and the same keys of annotations throughout. -/
abbrev SamePackageShape : PackagePlan → PackagePlan → Prop :=
  Settling.BothShapes packageParts (SameShape Package) (KeyMap.Rel (SameShape ActionRecord))

/-- Changes of a package and of its actions. -/
abbrev PackageChange : (PackagePlan → PackagePlan) → Prop :=
  Settling.BothChanges packageParts (EntityChange Package)
    (Settling.KeyedChange (EntityChange ActionRecord))

/-- The changes of a package settle it. -/
theorem settling_package : Settling SamePackageShape PackageChange :=
  .both _ (settling_entity Package) (settling_entity ActionRecord).underKeys

/-- Two plans with the same entities, and the same keys of annotations throughout. -/
abbrev SamePlanShape : Plan → Plan → Prop :=
  Settling.BothShapes planParts (KeyMap.Rel SamePackageShape) (KeyMap.Rel (SameShape Trigger))

/-- Changes of the packages and of the triggers of a plan. -/
abbrev PlanChange : (Plan → Plan) → Prop :=
  Settling.BothChanges planParts (Settling.KeyedChange PackageChange)
    (Settling.KeyedChange (EntityChange Trigger))

/-- The changes of a plan settle it. -/
theorem settling_plan : Settling SamePlanShape PlanChange :=
  .both _ settling_package.underKeys (settling_entity Trigger).underKeys

variable (settings : Settings) (vars : Variables) (path : String)

/-- **A pass over packages** comes to one change of each, as what it does with a package does.

**Proof sketch.** Induction on the packages of the descriptor.  Whether the plan has one depends
only on the names of packages, which are part of the shape. -/
theorem eachPackage_actsBy (missing : String → List Event)
    {revise : String → PackageSpec → Revision PackagePlan}
    (h : ∀ name spec, (revise name spec).ActsBy SamePackageShape PackageChange)
    (specs : List (String × PackageSpec)) :
    (eachPackage settings missing revise specs).ActsBy (KeyMap.Rel SamePackageShape)
      (Settling.KeyedChange PackageChange) := by
  induction specs with
  | nil => exact .skip settling_package.underKeys
  | cons e specs ih =>
    obtain ⟨name, spec⟩ := e
    have both := ((h name spec).atKey settling_package name (missing name)).andThen
      settling_package.underKeys ih
    exact both.onlyIf settling_package.underKeys
      (fun m => m.contains name || settings.skipUnmatchedPackages)
      (fun m m' hm => by rw [hm.contains name]) (missing name)

/-- The first pass. -/
theorem revisePackages_actsBy (specs : List (String × PackageSpec)) :
    (revisePackages settings vars path specs).ActsBy (KeyMap.Rel SamePackageShape)
      (Settling.KeyedChange PackageChange) :=
  eachPackage_actsBy settings _ (fun _ spec =>
    .onFirst packageParts (settling_entity ActionRecord).underKeys
      (reviseEntity_actsBy vars path Package spec.inputs spec.annotations)) specs

/-- The second pass. -/
theorem reviseActions_actsBy (specs : List (String × PackageSpec)) :
    (reviseActions settings vars path specs).ActsBy (KeyMap.Rel SamePackageShape)
      (Settling.KeyedChange PackageChange) := by
  refine eachPackage_actsBy settings _ (fun name spec => ?_) specs
  refine .onSecond packageParts (settling_entity Package) ?_
  exact .all (settling_entity ActionRecord).underKeys fun a _ =>
    (reviseAction_actsBy vars path a.2).atKey (settling_entity ActionRecord) a.1 _

/-- The third pass, which may revise one trigger several times. -/
theorem reviseTriggers_actsBy (specs : List (String × PackageSpec)) :
    (reviseTriggers vars path specs).ActsBy (KeyMap.Rel (SameShape Trigger))
      (Settling.KeyedChange (EntityChange Trigger)) :=
  .all (settling_entity Trigger).underKeys fun t _ =>
    (reviseEntity_actsBy vars path Trigger t.2.inputs t.2.annotations).atKey
      (settling_entity Trigger) t.1 _

/-- An override comes to one change of each entity, however far it gets. -/
theorem apply_actsBy (descriptor : Manifest) :
    (apply settings vars descriptor).ActsBy SamePlanShape PlanChange := by
  have onPackages := fun {r : Revision (KeyMap PackagePlan)}
      (h : r.ActsBy (KeyMap.Rel SamePackageShape) (Settling.KeyedChange PackageChange)) =>
    Revision.ActsBy.onFirst planParts (settling_entity Trigger).underKeys h
  have hpackages := onPackages (revisePackages_actsBy settings vars descriptor.path
    descriptor.resolved.entries)
  have hactions := onPackages (reviseActions_actsBy settings vars descriptor.path
    descriptor.resolved.entries)
  have htriggers := Revision.ActsBy.onSecond planParts settling_package.underKeys
    (reviseTriggers_actsBy vars descriptor.path descriptor.resolved.entries)
  exact (Revision.ActsBy.saying settling_plan _).andThen settling_plan
    (hpackages.andThen settling_plan (hactions.andThen settling_plan
      (htriggers.andThen settling_plan (.skip settling_plan))))

/-- **An override that is repeated changes nothing more** and has the same result, whether the
first one failed or not, and whatever keys the lists of the plan have. -/
theorem apply_repeated (descriptor : Manifest) (plan : Plan) :
    let once := apply settings vars descriptor plan
    let twice := apply settings vars descriptor once.1
    twice.1 = once.1 ∧ twice.2.result = once.2.result :=
  (apply_actsBy settings vars descriptor).repeated settling_plan plan

end Plans

end Override

end DeployPlan
